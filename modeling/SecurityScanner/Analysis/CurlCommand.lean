import SecurityScanner.Analysis.IssueClassifier
import SecurityScanner.Lib.ShellWords

/-!
# Reproduction commands

`_build_curl` puts the headers, the body and the URL of a request in single quotes as they
are. A shell reads the command as the request exactly when none of them has a single quote
and the method can stand as a word.
-/

namespace SecurityScanner

open Shell

/-- The value of a `-H` option. -/
def headerValue (kv : String × String) : String := kv.1 ++ ": " ++ kv.2

/-- The words that follow the method when the command is read as the request. -/
def curlArguments (r : CapturedResponse) : List String :=
  (r.requestHeaders.flatMap fun kv => ["-H", headerValue kv]) ++
    (match r.requestBody with
      | some body => if body ≠ "" then ["-d", body] else []
      | none => []) ++ [r.url]

def curlWords (r : CapturedResponse) : List String :=
  ["curl", "-X", r.method] ++ curlArguments r

/-- The strings of a request that the command has in quotes. -/
def quotedStrings (r : CapturedResponse) : List String :=
  r.requestHeaders.map headerValue ++ r.requestBody.toList ++ [r.url]

/-- The options of the command, and the URL. -/
def headerOption (kv : String × String) : String := "-H '" ++ headerValue kv ++ "'"

def bodyOption : Option String → String
  | some body => if body ≠ "" then "-d '" ++ body ++ "'" else ""
  | none => ""

lemma buildCurl_eq (r : CapturedResponse) : buildCurl r =
    "curl -X " ++ r.method ++ " " ++ String.intercalate " " (r.requestHeaders.map headerOption) ++
      " " ++ bodyOption r.requestBody ++ " '" ++ r.url ++ "'" := by
  have hheaders : (r.requestHeaders.map fun kv => "-H '" ++ kv.1 ++ ": " ++ kv.2 ++ "'") =
      r.requestHeaders.map headerOption := by
    refine List.map_congr_left fun kv _ => ?_
    simp [headerOption, headerValue, String.append_assoc]
  unfold buildCurl
  rw [hheaders]
  cases r.requestBody <;> rfl

lemma toList_buildCurl (r : CapturedResponse) : (buildCurl r).toList =
    "curl -X ".toList ++ ((r.method.toList ++ [' ']) ++
      (((String.intercalate " " (r.requestHeaders.map headerOption)).toList ++ [' ']) ++
        (((bodyOption r.requestBody).toList ++ [' ']) ++ '\'' :: (r.url.toList ++ ['\''])))) := by
  simp [buildCurl_eq]

section reading

variable {words : List (List Char)}

/-- The value of an option is one word. -/
lemma run_option {option value : List Char} (hne : option ≠ []) (hcomment : option.head? ≠ some '#')
    (hoption : option.all ordinary = true) (hvalue : '\'' ∉ value) :
    run ⟨.plain, words, none⟩ (option ++ [' '] ++ '\'' :: (value ++ ['\''])) =
      some ⟨.plain, words ++ [option], some value⟩ := by
  rw [run_append, run_append, run_word hne hcomment (List.all_eq_true.mp hoption),
    Option.bind_some, run_blank, Option.bind_some, run_quoted hvalue]
  rfl

lemma run_headerOption {kv : String × String} (h : '\'' ∉ (headerValue kv).toList) :
    run ⟨.plain, words, none⟩ (headerOption kv).toList =
      some ⟨.plain, words ++ ["-H".toList], some (headerValue kv).toList⟩ := by
  have hsplit : (headerOption kv).toList =
      "-H".toList ++ [' '] ++ '\'' :: ((headerValue kv).toList ++ ['\'']) := by
    simp [headerOption]
  rw [hsplit]
  exact run_option (by decide) (by decide) (by decide) h

/-- The headers are read in order. -/
lemma run_headers {headers : List (String × String)}
    (h : ∀ kv ∈ headers, '\'' ∉ (headerValue kv).toList) :
    run ⟨.plain, words, none⟩
        ((String.intercalate " " (headers.map headerOption)).toList ++ [' ']) =
      some ⟨.plain, words ++ (headers.flatMap fun kv => ["-H", headerValue kv]).map String.toList,
        none⟩ := by
  induction headers generalizing words with
  | nil => simp [run_blank]
  | cons kv headers ih =>
    have hkv : run ⟨.plain, words, none⟩ (headerOption kv).toList =
        some ⟨.plain, words ++ ["-H".toList], some (headerValue kv).toList⟩ :=
      run_headerOption (h kv List.mem_cons_self)
    have hrest := fun kv' hkv' => h kv' (List.mem_cons_of_mem _ hkv')
    cases headers with
    | nil =>
      rw [List.map_cons, List.map_nil, String.intercalate_singleton, run_append, hkv,
        Option.bind_some, run_blank]
      simp
    | cons kv' headers =>
      rw [List.map_cons, List.map_cons, String.intercalate_cons_cons, ← List.map_cons]
      have hblank : " ".toList = [' '] := rfl
      rw [String.toList_append, String.toList_append, hblank, List.append_assoc, List.append_assoc,
        run_append, hkv, Option.bind_some, run_append, run_blank, Option.bind_some, ih hrest]
      simp

/-- The body is read when it is not empty. -/
lemma run_body {body : Option String} (h : ∀ b ∈ body, '\'' ∉ b.toList) :
    run ⟨.plain, words, none⟩ ((bodyOption body).toList ++ [' ']) =
      some ⟨.plain, words ++ (match body with
        | some body => if body ≠ "" then ["-d", body] else []
        | none => []).map String.toList, none⟩ := by
  cases body with
  | none => simp [bodyOption, run_blank]
  | some b =>
    by_cases hb : b = ""
    · simp [bodyOption, hb, run_blank]
    · have hsplit : (bodyOption (some b)).toList =
          "-d".toList ++ [' '] ++ '\'' :: (b.toList ++ ['\'']) := by
        simp [bodyOption, hb]
      rw [hsplit, run_append, run_option (by decide) (by decide) (by decide) (h b rfl),
        Option.bind_some, run_blank]
      simp [hb]

/-- Behind the method the command is read as it is meant. -/
lemma run_arguments {r : CapturedResponse} (h : ∀ s ∈ quotedStrings r, '\'' ∉ s.toList) :
    ((run ⟨.plain, words, none⟩
      (((String.intercalate " " (r.requestHeaders.map headerOption)).toList ++ [' ']) ++
        (((bodyOption r.requestBody).toList ++ [' ']) ++
          '\'' :: (r.url.toList ++ ['\''])))).bind finish) =
      some (words ++ (curlArguments r).map String.toList) := by
  have hheaders : ∀ kv ∈ r.requestHeaders, '\'' ∉ (headerValue kv).toList := fun kv hkv =>
    h _ (List.mem_append_left _ (List.mem_append_left _ (List.mem_map_of_mem hkv)))
  have hbody : ∀ b ∈ r.requestBody, '\'' ∉ b.toList := fun b hb =>
    h _ (List.mem_append_left _ (List.mem_append_right _ (Option.mem_toList.mpr hb)))
  have hurl : '\'' ∉ r.url.toList := h _ (List.mem_append_right _ List.mem_cons_self)
  rw [run_append, run_headers hheaders, Option.bind_some, run_append, run_body hbody,
    Option.bind_some, run_quoted hurl, Option.bind_some]
  simp [finish, Reader.wordEnd, curlArguments]

end reading

section counting

lemma escapes_headerOption (kv : String × String) :
    escapes (headerOption kv).toList = escapes (headerValue kv).toList := by
  have hsplit : (headerOption kv).toList =
      "-H '".toList ++ (headerValue kv).toList ++ ['\''] := by
    simp [headerOption]
  have hoption : escapes "-H '".toList = 0 := rfl
  have hquote : escapes ['\''] = 0 := rfl
  rw [hsplit, escapes_append, escapes_append, hoption, hquote, Nat.zero_add, Nat.add_zero]

/-- The command has no more double quotes and backslashes than the words. -/
lemma escapes_headers (headers : List (String × String)) :
    escapes (String.intercalate " " (headers.map headerOption)).toList =
      escapes ((headers.flatMap fun kv => ["-H", headerValue kv]).flatMap String.toList) := by
  have hoption : escapes "-H".toList = 0 := rfl
  have hblank : escapes " ".toList = 0 := rfl
  induction headers with
  | nil => rfl
  | cons kv headers ih =>
    have hwords : ((kv :: headers).flatMap fun kv => ["-H", headerValue kv]).flatMap
        String.toList = "-H".toList ++ ((headerValue kv).toList ++
          (headers.flatMap fun kv => ["-H", headerValue kv]).flatMap String.toList) := by
      simp
    rw [hwords, escapes_append, escapes_append, hoption, ← ih, Nat.zero_add]
    cases headers with
    | nil =>
      rw [List.map_cons, List.map_nil, String.intercalate_singleton, escapes_headerOption]
      rfl
    | cons kv' headers =>
      rw [List.map_cons, List.map_cons, String.intercalate_cons_cons, String.toList_append,
        String.toList_append, escapes_append, escapes_append, hblank, escapes_headerOption,
        Nat.add_zero]

lemma escapes_body (body : Option String) : escapes (bodyOption body).toList =
    escapes ((match body with
      | some body => if body ≠ "" then ["-d", body] else []
      | none => []).flatMap String.toList) := by
  cases body with
  | none => rfl
  | some b =>
    by_cases hb : b = ""
    · subst hb
      rfl
    · have hsplit : (bodyOption (some b)).toList = "-d '".toList ++ b.toList ++ ['\''] := by
        simp [bodyOption, hb]
      have hoption : escapes "-d '".toList = 0 := rfl
      have hquote : escapes ['\''] = 0 := rfl
      have hword : escapes "-d".toList = 0 := rfl
      have hwords : ((match some b with
          | some body => if body ≠ "" then ["-d", body] else []
          | none => []).flatMap String.toList) = "-d".toList ++ b.toList := by
        simp [hb]
      rw [hsplit, hwords, escapes_append, escapes_append, escapes_append, hoption, hquote, hword,
        Nat.add_zero]

lemma escapes_buildCurl (r : CapturedResponse) :
    escapes (buildCurl r).toList = escapes ((curlWords r).flatMap String.toList) := by
  have hwords : (curlWords r).flatMap String.toList =
      "curl".toList ++ "-X".toList ++ r.method.toList ++
        (r.requestHeaders.flatMap fun kv => ["-H", headerValue kv]).flatMap String.toList ++
        (match r.requestBody with
          | some body => if body ≠ "" then ["-d", body] else []
          | none => []).flatMap String.toList ++ r.url.toList := by
    simp [curlWords, curlArguments]
  have hcurl : escapes "curl -X ".toList = 0 := rfl
  have hcommand : escapes "curl".toList = 0 := rfl
  have hflag : escapes "-X".toList = 0 := rfl
  have hblank : escapes [' '] = 0 := rfl
  have hquote : escapes ['\''] = 0 := rfl
  have hurl : escapes ('\'' :: (r.url.toList ++ ['\''])) = escapes r.url.toList := by
    rw [← List.singleton_append, escapes_append, escapes_append, hquote, Nat.zero_add, Nat.add_zero]
  rw [toList_buildCurl, hwords]
  simp only [escapes_append, hcurl, hcommand, hflag, hblank, hurl, escapes_headers, escapes_body]
  omega

end counting

section method

variable {r : CapturedResponse}

/-- The words that the command begins with. -/
def curlStart : List (List Char) := ["curl".toList, "-X".toList]

lemma split_buildCurl (r : CapturedResponse) : Shell.split (buildCurl r) =
    ((run ⟨.plain, curlStart, none⟩ ((r.method.toList ++ [' ']) ++
      (((String.intercalate " " (r.requestHeaders.map headerOption)).toList ++ [' ']) ++
        (((bodyOption r.requestBody).toList ++ [' ']) ++
          '\'' :: (r.url.toList ++ ['\'']))))).bind finish).map
            fun words => words.map String.ofList := by
  have hstart : run {} "curl -X ".toList = some ⟨.plain, curlStart, none⟩ := rfl
  rw [Shell.split, toList_buildCurl, run_append, hstart, Option.bind_some]

lemma split_of_word (hmethod : ∀ c ∈ r.method.toList, ordinary c = true) (hne : r.method ≠ "")
    (hcomment : r.method.toList.head? ≠ some '#')
    (h : ∀ s ∈ quotedStrings r, '\'' ∉ s.toList) :
    Shell.split (buildCurl r) = some (curlWords r) := by
  have hword : run ⟨.plain, curlStart, none⟩ (r.method.toList ++ [' ']) =
      some ⟨.plain, curlStart ++ [r.method.toList], none⟩ := by
    rw [run_append, run_word (by simpa using hne) hcomment hmethod, Option.bind_some, run_blank]
    rfl
  rw [split_buildCurl, run_append, hword, Option.bind_some, run_arguments h]
  simp [curlStart, curlWords, Function.comp_def]

/-- An empty method is no word. -/
lemma split_of_empty (hmethod : r.method = "") (h : ∀ s ∈ quotedStrings r, '\'' ∉ s.toList) :
    Shell.split (buildCurl r) = some ("curl" :: "-X" :: curlArguments r) := by
  have hword : run ⟨.plain, curlStart, none⟩ ("".toList ++ [' ']) =
      some ⟨.plain, curlStart, none⟩ := rfl
  rw [split_buildCurl, hmethod, run_append, hword, Option.bind_some, run_arguments h]
  simp [curlStart, Function.comp_def]

/-- A method that begins a comment ends the command. -/
lemma split_of_comment (hcomment : r.method.toList.head? = some '#') {ws : List String}
    (h : Shell.split (buildCurl r) = some ws) : ws = ["curl", "-X"] := by
  obtain ⟨cs, hcs⟩ : ∃ cs, r.method.toList = '#' :: cs := by
    cases hm : r.method.toList with
    | nil => simp [hm] at hcomment
    | cons c cs =>
      rw [hm] at hcomment
      cases hcomment
      exact ⟨cs, rfl⟩
  have hstep : step ⟨.plain, curlStart, none⟩ '#' = some ⟨.comment, curlStart, none⟩ := rfl
  rw [split_buildCurl, hcs, List.cons_append, List.cons_append, run_cons, hstep,
    Option.bind_some] at h
  obtain ⟨words, hwords, rfl⟩ := Option.map_eq_some_iff.mp h
  obtain ⟨l, hrun, hfinish⟩ := Option.bind_eq_some_iff.mp hwords
  obtain rfl := run_comment rfl hrun
  cases hfinish
  rfl

/-- What stands in quotes is one of the words, but for an empty body. -/
lemma mem_curlWords {s : String} (hs : s ∈ quotedStrings r) : s ∈ curlWords r ∨ s = "" := by
  unfold quotedStrings at hs
  unfold curlWords curlArguments
  rcases List.mem_append.mp hs with hs | hs
  · rcases List.mem_append.mp hs with hs | hs
    · obtain ⟨kv, hkv, rfl⟩ := List.mem_map.mp hs
      refine Or.inl (List.mem_append_right _ (List.mem_append_left _ (List.mem_append_left _ ?_)))
      exact List.mem_flatMap.mpr ⟨kv, hkv, by simp⟩
    · obtain hbody : r.requestBody = some s := Option.mem_toList.mp hs
      by_cases hempty : s = ""
      · exact Or.inr hempty
      · exact Or.inl (by simp [hbody, hempty])
  · exact Or.inl (List.mem_append_right _ (List.mem_append_right _ hs))

end method

/-- With a method that needs no quotes, the command reproduces the request exactly when the
method can be a word and no quoted string has a single quote. -/
theorem buildCurl_reproduces_iff {r : CapturedResponse}
    (hmethod : ∀ c ∈ r.method.toList, Shell.ordinary c = true) :
    Shell.split (buildCurl r) = some (curlWords r) ↔
      (r.method ≠ "" ∧ r.method.toList.head? ≠ some '#') ∧
        ∀ s ∈ quotedStrings r, '\'' ∉ s.toList := by
  constructor
  · intro h
    have hfree : ∀ s ∈ quotedStrings r, '\'' ∉ s.toList := by
      intro s hs
      rcases mem_curlWords hs with hword | rfl
      · exact no_quote_of_kept h (escapes_buildCurl r).le hword
      · exact List.not_mem_nil
    refine ⟨⟨fun hempty => ?_, fun hcomment => ?_⟩, hfree⟩
    · rw [split_of_empty hempty hfree] at h
      have := congrArg List.length (Option.some.inj h)
      simp [curlWords] at this
    · have := congrArg List.length (split_of_comment hcomment h)
      simp [curlWords, curlArguments] at this
  · rintro ⟨⟨hne, hcomment⟩, hfree⟩
    exact split_of_word hmethod hne hcomment hfree

/-- A request for a URL. -/
def getRequest (url : String) : CapturedResponse where
  endpoint := "/items"
  method := "GET"
  url
  statusCode := 200
  requestHeaders := [("Accept", "*/*")]
  requestBody := some "\x7b\"id\": 1\x7d"

theorem buildCurl_reproduces_plain :
    Shell.split (buildCurl (getRequest "https://api.example/items?id=1")) =
      some ["curl", "-X", "GET", "-H", "Accept: */*", "-d", "\x7b\"id\": 1\x7d",
        "https://api.example/items?id=1"] :=
  (buildCurl_reproduces_iff (List.all_eq_true.mp (by decide +kernel))).mpr
    ⟨⟨by decide, by decide⟩, by decide +kernel⟩

/-- An injection payload in the URL ends the quotes, and the rest becomes words. -/
theorem buildCurl_splits_injection :
    Shell.split (buildCurl (getRequest "https://api.example/items?id=1' OR '1'='1")) =
        some ["curl", "-X", "GET", "-H", "Accept: */*", "-d", "\x7b\"id\": 1\x7d",
          "https://api.example/items?id=1", "OR", "1=1"] ∧
      Shell.split (buildCurl (getRequest "https://api.example/items?id=1' OR '1'='1")) ≠
        some (curlWords (getRequest "https://api.example/items?id=1' OR '1'='1")) := by
  decide +kernel

end SecurityScanner
