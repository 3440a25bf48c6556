import Mathlib.Tactic.Common

/-!
# The words of a shell command

Token recognition and quote removal of the POSIX shell for one simple command: blanks end a
word, quotes and the backslash are removed, `#` starts a comment at the beginning of a word.
An operator, a newline outside quotes and an expansion are refused.
-/

namespace Shell

inductive Mode where
  | plain
  | escaped
  | single
  | double
  /-- After a backslash in double quotes. -/
  | doubleEscaped
  | comment

/-- The words that are complete, the word that is being read, and how the next character is
read. A word can be empty: quotes begin one. -/
structure Reader where
  mode : Mode := .plain
  words : List (List Char) := []
  word : Option (List Char) := none

namespace Reader

/-- The characters `cs` belong to the word. -/
def push (l : Reader) (mode : Mode) (cs : List Char) : Reader :=
  { l with mode, word := some (l.word.getD [] ++ cs) }

/-- The word is complete, if there is one. -/
def wordEnd (l : Reader) : Reader := ⟨.plain, l.words ++ l.word.toList, none⟩

/-- The characters read into words. -/
def content (l : Reader) : List Char := l.words.flatten ++ l.word.getD []

end Reader

def isBlank (c : Char) : Bool := c == ' ' || c == '\t'

def isOperator (c : Char) : Bool :=
  c == '|' || c == '&' || c == ';' || c == '<' || c == '>' || c == '(' || c == ')' || c == '\n'

def startsExpansion (c : Char) : Bool := c == '$' || c == '\x60'

def step (l : Reader) (c : Char) : Option Reader :=
  match l.mode with
  | .plain =>
    if isBlank c then some l.wordEnd
    else if c = '\'' then some (l.push .single [])
    else if c = '"' then some (l.push .double [])
    else if c = '\\' then some { l with mode := .escaped }
    else if c = '#' && l.word.isNone then some { l with mode := .comment }
    else if isOperator c || startsExpansion c then none
    else some (l.push .plain [c])
  | .escaped =>
    -- a backslash and a newline continue the line
    if c = '\n' then some { l with mode := .plain } else some (l.push .plain [c])
  | .single => if c = '\'' then some { l with mode := .plain } else some (l.push .single [c])
  | .double =>
    if c = '"' then some { l with mode := .plain }
    else if c = '\\' then some { l with mode := .doubleEscaped }
    else if startsExpansion c then none
    else some (l.push .double [c])
  | .doubleEscaped =>
    if c = '\n' then some { l with mode := .double }
    else if c = '"' || c = '\\' || startsExpansion c then some (l.push .double [c])
    else some (l.push .double ['\\', c])
  | .comment => if c = '\n' then none else some l

def run (l : Reader) (cs : List Char) : Option Reader := cs.foldlM step l

/-- Quotes must be closed. -/
def finish (l : Reader) : Option (List (List Char)) :=
  match l.mode with
  | .plain | .comment => some l.wordEnd.words
  | _ => none

def split (s : String) : Option (List String) :=
  ((run {} s.toList).bind finish).map fun words => words.map String.ofList

@[simp] lemma run_nil (l : Reader) : run l [] = some l := rfl

lemma run_cons (l : Reader) (c : Char) (cs : List Char) :
    run l (c :: cs) = (step l c).bind (run · cs) := List.foldlM_cons

lemma run_append (l : Reader) (cs cs' : List Char) :
    run l (cs ++ cs') = (run l cs).bind (run · cs') := List.foldlM_append

@[simp] lemma content_push (l : Reader) (mode : Mode) (cs : List Char) :
    (l.push mode cs).content = l.content ++ cs := by
  simp [Reader.content, Reader.push]

@[simp] lemma content_wordEnd (l : Reader) : l.wordEnd.content = l.content := by
  unfold Reader.content Reader.wordEnd
  cases l.word <;> simp

section quotes

/-- How many characters are there that make a quote part of a word. -/
def escapes (cs : List Char) : ℕ := cs.countP fun c => c == '"' || c == '\\'

lemma escapes_append (cs cs' : List Char) : escapes (cs ++ cs') = escapes cs + escapes cs' :=
  List.countP_append

/-- The escapes that were read and belong to no word so far. -/
def Mode.removed : Mode → ℕ
  | .plain | .single | .comment => 0
  | .escaped | .double => 1
  | .doubleEscaped => 2

/-- After `n` escapes were read: they are in the words or removed, and a quote in a word has
cost one. -/
structure Reader.Pays (l : Reader) (n : ℕ) : Prop where
  kept : escapes l.content + l.mode.removed ≤ n
  quote : '\'' ∈ l.content → escapes l.content < n

lemma Reader.Pays.extend {l l' : Reader} {n m : ℕ} (h : l.Pays n) (k : List Char)
    (hcontent : l'.content = l.content ++ k)
    (hkept : escapes l.content + escapes k + l'.mode.removed ≤ m)
    (hquote : '\'' ∈ k → escapes l.content + escapes k < m) (hm : n + escapes k ≤ m) :
    l'.Pays m := by
  refine ⟨?_, fun hmem => ?_⟩
  · rw [hcontent, escapes_append]
    exact hkept
  · rw [hcontent, escapes_append]
    rw [hcontent] at hmem
    rcases List.mem_append.mp hmem with hmem | hmem
    · have := h.quote hmem
      omega
    · exact hquote hmem

/-- While something is removed that is not in the words yet, a quote is paid for. -/
lemma Reader.Pays.of_removed {l : Reader} {m : ℕ} (hkept : escapes l.content + l.mode.removed ≤ m)
    (hremoved : 0 < l.mode.removed) : l.Pays m :=
  ⟨hkept, fun _ => by omega⟩

lemma pays_step {l l' : Reader} {c : Char} {n : ℕ} (h : l.Pays n) (hs : step l c = some l') :
    l'.Pays (n + escapes [c]) := by
  have hkept := h.kept
  have hnil : escapes [] = 0 := rfl
  have hdouble : escapes ['"'] = 1 := rfl
  have hback : escapes ['\\'] = 1 := rfl
  have hpair : escapes ['\\', c] = 1 + escapes [c] := escapes_append ['\\'] [c]
  have hpush : ∀ mode k, escapes (l.push mode k).content = escapes l.content + escapes k :=
    fun mode k => by rw [content_push, escapes_append]
  have hmodeOnly : ∀ mode, Reader.content { l with mode } = l.content := fun mode => rfl
  cases hmode : l.mode with
  | plain =>
    simp only [step, hmode] at hs
    simp only [hmode, Mode.removed] at hkept
    split_ifs at hs with hblank hsingle hquote hescape hcomment hrefused <;> cases hs
    · exact h.extend [] (by simp) (by simp only [Reader.wordEnd, Mode.removed]; omega) nofun
        (by omega)
    · exact h.extend [] (by simp) (by simp only [Reader.push, Mode.removed]; omega) nofun
        (by omega)
    · subst hquote
      exact .of_removed (by rw [hpush]; simp only [Reader.push, Mode.removed]; omega) Nat.one_pos
    · subst hescape
      exact .of_removed (by rw [hmodeOnly]; simp only [Mode.removed]; omega) Nat.one_pos
    · exact h.extend [] (by simp [hmodeOnly]) (by simp only [Mode.removed]; omega) nofun
        (by omega)
    · refine h.extend [c] (by simp) (by simp only [Reader.push, Mode.removed]; omega) ?_ (by omega)
      intro hmem
      exact absurd (List.mem_singleton.mp hmem).symm hsingle
  | escaped =>
    simp only [step, hmode] at hs
    simp only [hmode, Mode.removed] at hkept
    split_ifs at hs <;> cases hs
    · exact h.extend [] (by simp [hmodeOnly]) (by simp only [Mode.removed]; omega) nofun
        (by omega)
    · exact h.extend [c] (by simp) (by simp only [Reader.push, Mode.removed]; omega)
        (fun _ => by omega) (by omega)
  | single =>
    simp only [step, hmode] at hs
    simp only [hmode, Mode.removed] at hkept
    split_ifs at hs with hsingle <;> cases hs
    · exact h.extend [] (by simp [hmodeOnly]) (by simp only [Mode.removed]; omega) nofun
        (by omega)
    · refine h.extend [c] (by simp) (by simp only [Reader.push, Mode.removed]; omega) ?_ (by omega)
      intro hmem
      exact absurd (List.mem_singleton.mp hmem).symm hsingle
  | double =>
    simp only [step, hmode] at hs
    simp only [hmode, Mode.removed] at hkept
    split_ifs at hs with hquote hescape <;> cases hs
    · exact h.extend [] (by simp [hmodeOnly]) (by simp only [Mode.removed]; omega) nofun
        (by omega)
    · subst hescape
      exact .of_removed (by rw [hmodeOnly]; simp only [Mode.removed]; omega) Nat.two_pos
    · exact .of_removed (by rw [hpush]; simp only [Reader.push, Mode.removed]; omega) Nat.one_pos
  | doubleEscaped =>
    simp only [step, hmode] at hs
    simp only [hmode, Mode.removed] at hkept
    split_ifs at hs <;> cases hs
    · exact .of_removed (by rw [hmodeOnly]; simp only [Mode.removed]; omega) Nat.one_pos
    · exact .of_removed (by rw [hpush]; simp only [Reader.push, Mode.removed]; omega) Nat.one_pos
    · exact .of_removed (by rw [hpush]; simp only [Reader.push, Mode.removed]; omega) Nat.one_pos
  | comment =>
    simp only [step, hmode] at hs
    simp only [hmode, Mode.removed] at hkept
    split_ifs at hs
    cases hs
    exact h.extend [] (by simp) (by simp only [hmode, Mode.removed]; omega) nofun (by omega)

lemma pays_run {l l' : Reader} {cs : List Char} {n : ℕ} (h : l.Pays n)
    (hrun : run l cs = some l') : l'.Pays (n + escapes cs) := by
  induction cs generalizing l n with
  | nil =>
    cases hrun
    exact h
  | cons c cs ih =>
    rw [run_cons] at hrun
    obtain ⟨l₁, hstep, hrun⟩ := Option.bind_eq_some_iff.mp hrun
    have := ih (pays_step h hstep) hrun
    rwa [Nat.add_assoc, ← escapes_append, List.singleton_append] at this

/-- A text keeps its double quotes and backslashes when it is split only if no word has a
single quote. -/
theorem no_quote_of_kept {s : String} {ws : List String} (h : split s = some ws)
    (hkept : escapes s.toList ≤ escapes (ws.flatMap String.toList)) {w : String} (hw : w ∈ ws) :
    '\'' ∉ w.toList := by
  obtain ⟨words, hwords, rfl⟩ := Option.map_eq_some_iff.mp h
  obtain ⟨l, hrun, hfinish⟩ := Option.bind_eq_some_iff.mp hwords
  have hpays : l.Pays (0 + escapes s.toList) :=
    pays_run (l := {}) ⟨Nat.le_refl 0, nofun⟩ hrun
  have hcontent : words.flatten = l.content := by
    rw [← content_wordEnd]
    unfold finish at hfinish
    split at hfinish <;> cases hfinish <;> exact (List.append_nil _).symm
  have hflat : (words.map String.ofList).flatMap String.toList = words.flatten := by
    simp [List.flatMap, Function.comp_def]
  rw [hflat, hcontent] at hkept
  intro hmem
  have hquote := hpays.quote (hcontent ▸ hflat ▸ List.mem_flatMap.mpr ⟨w, hw, hmem⟩)
  omega

end quotes

section words

/-- A character that need not be quoted, but for `#` at the beginning of a word. -/
def ordinary (c : Char) : Bool :=
  !(isBlank c || isOperator c || startsExpansion c || c == '\'' || c == '"' || c == '\\')

variable {words : List (List Char)} {cs : List Char}

lemma step_ordinary {c : Char} (hc : ordinary c = true) {word : Option (List Char)}
    (hword : c = '#' → word.isSome = true) :
    step ⟨.plain, words, word⟩ c = some ⟨.plain, words, some (word.getD [] ++ [c])⟩ := by
  simp only [ordinary, Bool.not_eq_true', Bool.or_eq_false_iff, beq_eq_false_iff_ne, ne_eq] at hc
  obtain ⟨⟨⟨⟨⟨hblank, hoperator⟩, hexpansion⟩, hsingle⟩, hdouble⟩, hescape⟩ := hc
  have hcomment : ¬((c = '#' && word.isNone) = true) := by
    cases word with
    | none => simpa using hword
    | some w => simp
  simp only [step, hblank, hsingle, hdouble, hescape, if_neg hcomment, hoperator, hexpansion,
    Bool.false_eq_true, ↓reduceIte, Bool.or_self, Reader.push]

lemma run_ordinary (hcs : ∀ c ∈ cs, ordinary c = true) (word : List Char) :
    run ⟨.plain, words, some word⟩ cs = some ⟨.plain, words, some (word ++ cs)⟩ := by
  induction cs generalizing word with
  | nil => simp
  | cons c cs ih =>
    rw [run_cons, step_ordinary (hcs c List.mem_cons_self) fun _ => rfl, Option.bind_some,
      Option.getD_some, ih (fun c hc => hcs c (List.mem_cons_of_mem _ hc)),
      List.append_assoc, List.singleton_append]

/-- Ordinary characters make a word. -/
lemma run_word (hne : cs ≠ []) (hcomment : cs.head? ≠ some '#')
    (hcs : ∀ c ∈ cs, ordinary c = true) :
    run ⟨.plain, words, none⟩ cs = some ⟨.plain, words, some cs⟩ := by
  cases cs with
  | nil => exact absurd rfl hne
  | cons c cs =>
    have hc : c = '#' → (none : Option (List Char)).isSome = true := by
      rintro rfl
      exact absurd rfl hcomment
    rw [run_cons, step_ordinary (hcs c List.mem_cons_self) hc, Option.bind_some,
      run_ordinary fun c hc => hcs c (List.mem_cons_of_mem _ hc)]
    rfl

/-- Nothing is read after a comment has begun. -/
lemma run_comment {l l' : Reader} (hl : l.mode = .comment) (hrun : run l cs = some l') : l' = l := by
  induction cs with
  | nil => exact (Option.some.inj hrun).symm
  | cons c cs ih =>
    rw [run_cons] at hrun
    obtain ⟨l₁, hstep, hrun⟩ := Option.bind_eq_some_iff.mp hrun
    simp only [step, hl] at hstep
    split_ifs at hstep
    cases hstep
    exact ih hrun

lemma run_single (hcs : '\'' ∉ cs) (word : List Char) :
    run ⟨.single, words, some word⟩ cs = some ⟨.single, words, some (word ++ cs)⟩ := by
  induction cs generalizing word with
  | nil => simp
  | cons c cs ih =>
    rw [List.mem_cons, not_or] at hcs
    have hstep : step ⟨.single, words, some word⟩ c = some ⟨.single, words, some (word ++ [c])⟩ :=
      if_neg (Ne.symm hcs.1)
    rw [run_cons, hstep, Option.bind_some, ih hcs.2, List.append_assoc, List.singleton_append]

/-- What stands in single quotes is one word. -/
lemma run_quoted (hcs : '\'' ∉ cs) :
    run ⟨.plain, words, none⟩ ('\'' :: (cs ++ ['\''])) = some ⟨.plain, words, some cs⟩ := by
  have hopen : step ⟨.plain, words, none⟩ '\'' = some ⟨.single, words, some []⟩ := rfl
  rw [run_cons, hopen, Option.bind_some, run_append, run_single hcs]
  rfl

lemma run_blank (word : Option (List Char)) :
    run ⟨.plain, words, word⟩ [' '] = some ⟨.plain, words ++ word.toList, none⟩ := rfl

end words

end Shell
