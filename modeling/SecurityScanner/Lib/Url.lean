import Mathlib.Data.List.Basic

/-!
# The parts of a URL

What `urllib.parse.urlsplit` of Python makes of a text, as far as the authority goes. The
text is a list over any alphabet whose letters have a code point.
-/

namespace Url

/-- The exception of `urlsplit`. -/
structure ValueError where
  message : String
  deriving DecidableEq, Repr

section characters

def isAlpha (c : Nat) : Bool := (65 ≤ c && c ≤ 90) || (97 ≤ c && c ≤ 122)

def isDigit (c : Nat) : Bool := 48 ≤ c && c ≤ 57

/-- Letters, digits, `+`, `-` and `.`. -/
def isSchemeChar (c : Nat) : Bool := isAlpha c || isDigit c || c = 43 || c = 45 || c = 46

/-- `/`, `?` and `#`. -/
def isNetlocEnd (c : Nat) : Bool := c = 47 || c = 63 || c = 35

def foldCase (c : Nat) : Nat := if 65 ≤ c ∧ c ≤ 90 then c + 32 else c

end characters

section parts

variable {α : Type} (code : α → Nat)

/-- The characters that `urlsplit` strips at the start and those that it removes: the
C0 controls and blanks, and tabs and line ends. -/
def clean (cs : List α) : List α :=
  (cs.dropWhile (code · ≤ 32)).filter fun c => code c ≠ 9 ∧ code c ≠ 10 ∧ code c ≠ 13

/-- The scheme of a text that has one, and what follows its colon. -/
def splitScheme (cs : List α) : Option (List α × List α) :=
  let scheme := cs.takeWhile (code · ≠ 58)
  match cs.dropWhile (code · ≠ 58), scheme with
  | _ :: rest, c :: _ =>
    if isAlpha (code c) ∧ scheme.all (isSchemeChar ∘ code) then some (scheme, rest) else none
  | _, _ => none

/-- The authority of a text that starts with `//`, and what follows it. -/
def splitNetloc (cs : List α) : Option (List α × List α) :=
  match cs with
  | a :: b :: rest =>
    if code a = 47 ∧ code b = 47 then
      some (rest.takeWhile (fun c => !isNetlocEnd (code c)),
        rest.dropWhile (fun c => !isNetlocEnd (code c)))
    else none
  | _ => none

/-- `netloc`, empty where there is none. -/
def netloc (cs : List α) : List α :=
  let cs := clean code cs
  let rest := match splitScheme code cs with
    | some (_, rest) => rest
    | none => cs
  match splitNetloc code rest with
  | some (netloc, _) => netloc
  | none => []

/-- `uses_params`, as code points. -/
def usesParams : List (List Nat) :=
  ["", "ftp", "hdl", "prospero", "http", "https", "shttp", "rtsp", "rtsps", "sip", "sips", "mms",
    "sftp", "tel"].map fun s => s.toList.map Char.toNat

/-- `_splitparams`: the path without the parameters of its last segment. -/
def withoutParams (path : List α) : List α :=
  let segment := (path.reverse.takeWhile (code · ≠ 47)).reverse
  path.take (path.length - segment.length) ++ segment.takeWhile (code · ≠ 59)

/-- `path`. -/
def path (cs : List α) : List α :=
  let cs := clean code cs
  let (scheme, rest) := (splitScheme code cs).getD ([], cs)
  let rest := match splitNetloc code rest with
    | some (_, after) => after
    | none => rest
  let path := (rest.takeWhile (code · ≠ 35)).takeWhile (code · ≠ 63)
  if usesParams.contains (scheme.map (foldCase ∘ code)) then withoutParams code path else path

/-- What is read of the result of `urlparse`. -/
structure Parts (α : Type) where
  scheme : List α
  netloc : List α
  path : List α

/-- `urlparse`, with a mapping of letters to lower case. The check is what `urlsplit` asks of a
netloc beside the pairing of its brackets: the address inside them and its normal form. -/
def urlparse (lower : α → α) (checkNetloc : List α → Except ValueError Unit) (cs : List α) :
    Except ValueError (Parts α) :=
  let netloc := netloc code cs
  let scheme := ((splitScheme code (clean code cs)).getD ([], [])).1
  let parts := ⟨scheme.map lower, netloc, path code cs⟩
  if netloc.isEmpty then .ok parts
  else if (netloc.map code).contains 91 != (netloc.map code).contains 93 then
    .error ⟨"Invalid IPv6 URL"⟩
  else (checkNetloc netloc).map fun _ => parts

/-- The text before the first letter with the code `c`, and the text after it. -/
def partition (c : Nat) (cs : List α) : List α × List α :=
  (cs.takeWhile (code · ≠ c), (cs.dropWhile (code · ≠ c)).drop 1)

/-- `_hostinfo`: the host and the text of the port. -/
def hostinfo (netloc : List α) : List α × List α :=
  let hostinfo := (netloc.reverse.takeWhile (code · ≠ 64)).reverse
  if (hostinfo.map code).contains 91 then
    let (host, rest) := partition code 93 (partition code 91 hostinfo).2
    (host, (partition code 58 rest).2)
  else partition code 58 hostinfo

/-- Where a request goes. -/
structure Origin where
  scheme : List Nat
  host : List Nat
  port : Option Nat
  deriving DecidableEq, Repr

/-- The port of a text of digits, where there is one. -/
def parsePort (port : List Nat) : Option (Option Nat) :=
  if port = [] then some none
  else if port.all isDigit then
    let n := port.foldl (fun n c => 10 * n + (c - 48)) 0
    if n ≤ 65535 then some (some n) else none
  else none

/-- Scheme, host and port of an absolute URL, with letters in lower case. -/
def origin? (cs : List α) : Option Origin := do
  let (scheme, rest) ← splitScheme code (clean code cs)
  let (netloc, _) ← splitNetloc code rest
  let (host, port) := hostinfo code netloc
  let port ← parsePort (port.map code)
  return ⟨scheme.map (foldCase ∘ code), host.map (foldCase ∘ code), port⟩

end parts

/-- `urlparse(url).netloc`. The parameter is what `urlsplit` checks about a netloc beside
the pairing of its brackets: the address inside them and its normal form. -/
def urlparseNetloc (checkNetloc : String → Except ValueError Unit) (url : String) :
    Except ValueError String :=
  let netloc := netloc Char.toNat url.toList
  if netloc = [] then .ok ""
  else if netloc.contains '[' != netloc.contains ']' then .error ⟨"Invalid IPv6 URL"⟩
  else (checkNetloc (String.ofList netloc)).map fun _ => String.ofList netloc

/-- `urlparse(url).path`. -/
def urlparsePath (checkNetloc : String → Except ValueError Unit) (url : String) :
    Except ValueError String :=
  (urlparseNetloc checkNetloc url).map fun _ => String.ofList (path Char.toNat url.toList)

section laws

variable {α : Type} {code : α → Nat}

lemma isSchemeChar_ne {c d : Nat} (h : isSchemeChar c = true) (hd : isSchemeChar d = false) :
    c ≠ d := by
  rintro rfl
  rw [h] at hd
  cases hd

/-- A text that is put back together from its scheme and the rest. -/
lemma splitScheme_append {scheme rest : List α} {colon : α} (hcolon : code colon = 58)
    (hchars : scheme.all (isSchemeChar ∘ code)) (hhead : scheme.head?.any (isAlpha ∘ code)) :
    splitScheme code (scheme ++ colon :: rest) = some (scheme, rest) := by
  have hne : ∀ c ∈ scheme, decide (code c ≠ 58) = true := by
    intro c hc
    have hchar : isSchemeChar (code c) = true := List.all_eq_true.mp hchars c hc
    simpa using isSchemeChar_ne hchar (by decide)
  unfold splitScheme
  rw [List.takeWhile_append_of_pos hne, List.dropWhile_append_of_pos hne]
  cases scheme with
  | nil => cases hhead
  | cons c cs => simp_all

lemma splitScheme_eq_some {cs scheme rest : List α}
    (h : splitScheme code cs = some (scheme, rest)) :
    ∃ colon, code colon = 58 ∧ cs = scheme ++ colon :: rest ∧
      scheme.all (isSchemeChar ∘ code) ∧ scheme.head?.any (isAlpha ∘ code) := by
  have hcs : cs.takeWhile (code · ≠ 58) ++ cs.dropWhile (code · ≠ 58) = cs :=
    List.takeWhile_append_dropWhile
  have hhead := List.head?_dropWhile_not (code · ≠ 58) cs
  unfold splitScheme at h
  generalize cs.takeWhile (code · ≠ 58) = taken at h hcs
  generalize cs.dropWhile (code · ≠ 58) = dropped at h hcs hhead
  cases dropped with
  | nil => cases h
  | cons colon rest' =>
    cases taken with
    | nil => cases h
    | cons c cs' =>
      simp only at h
      split at h
      · rename_i hok
        obtain ⟨rfl, rfl⟩ := Prod.mk.inj (Option.some.inj h)
        exact ⟨colon, by simpa using hhead, hcs.symm, hok.2, by simpa using hok.1⟩
      · cases h

/-- What comes behind an authority that has ended does not belong to it. -/
lemma splitNetloc_append {cs netloc after : List α} (h : splitNetloc code cs = some (netloc, after))
    (hne : after ≠ []) (more : List α) :
    splitNetloc code (cs ++ more) = some (netloc, after ++ more) := by
  unfold splitNetloc at h
  split at h
  · rename_i a b rest
    split at h
    · rename_i hslash
      obtain ⟨rfl, rfl⟩ := Prod.mk.inj (Option.some.inj h)
      have hsplit := rest.takeWhile_append_dropWhile (p := fun c => !isNetlocEnd (code c))
      have hlen : (rest.takeWhile fun c => !isNetlocEnd (code c)).length ≠ rest.length := by
        intro hlen
        apply hne
        have := congrArg List.length hsplit
        rw [List.length_append] at this
        exact List.eq_nil_of_length_eq_zero (by omega)
      simp only [splitNetloc, List.cons_append, hslash, and_self, if_true]
      rw [List.takeWhile_append, if_neg hlen, List.dropWhile_append, if_neg]
      simpa using hne
    · cases h
  · cases h

lemma clean_append {cs : List α} (h : clean code cs ≠ []) (more : List α) :
    ∃ more', clean code (cs ++ more) = clean code cs ++ more' := by
  have hdrop : cs.dropWhile (code · ≤ 32) ≠ [] := by
    intro hnil
    apply h
    unfold clean
    rw [hnil, List.filter_nil]
  unfold clean
  rw [List.dropWhile_append, if_neg (by simpa using hdrop), List.filter_append]
  exact ⟨_, rfl⟩

/-- The authority of an absolute URL ends before the URL does. -/
def AuthorityEnds (code : α → Nat) (cs : List α) : Prop :=
  ∃ scheme rest netloc after, splitScheme code (clean code cs) = some (scheme, rest) ∧
    splitNetloc code rest = some (netloc, after) ∧ after ≠ []

/-- Then a text behind the URL leaves its origin alone. -/
lemma origin?_append {cs : List α} (h : AuthorityEnds code cs) (more : List α) :
    origin? code (cs ++ more) = origin? code cs := by
  obtain ⟨scheme, rest, netloc, after, hscheme, hnetloc, hafter⟩ := h
  obtain ⟨colon, hcolon, hcs, hchars, hhead⟩ := splitScheme_eq_some hscheme
  have hclean : clean code cs ≠ [] := by
    rw [hcs]
    simp
  obtain ⟨more', hmore⟩ := clean_append hclean more
  have happend : splitScheme code (clean code (cs ++ more)) = some (scheme, rest ++ more') := by
    rw [hmore, hcs, List.append_assoc, List.cons_append]
    exact splitScheme_append hcolon hchars hhead
  unfold origin?
  simp only [happend, hscheme, Option.bind_eq_bind, Option.bind_some,
    splitNetloc_append hnetloc hafter more', hnetloc]

end laws

end Url
