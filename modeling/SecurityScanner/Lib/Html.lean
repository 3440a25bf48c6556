import Mathlib.Data.List.Infix
import Mathlib.Tactic.Common

/-!
# Tags of HTML texts

The states of an HTML tokenizer, as far as they decide which tags a text has: document types,
declarations and processing instructions all end like a bogus comment, and the escapes inside
of scripts are left out. A text in which no `<` opens anything has no tags, wherever it stands
between the tags of a template.
-/

namespace Html

/-- A tag with what stands behind its name. -/
structure Tag where
  closing : Bool
  name : List Char
  attributes : List Char := []
  deriving DecidableEq, Repr

/-- Places inside of a tag. -/
inductive TagState where
  | name | beforeAttribute | attribute | afterAttribute | beforeValue | doubleQuoted
  | singleQuoted | unquoted | afterValue | selfClosing
  deriving DecidableEq, Repr

/-- Places inside of a comment. -/
inductive CommentState where
  | start | startDash | inside | endDash | ending | endBang
  deriving DecidableEq, Repr

/-- In `raw` elements nothing but their own closing tag counts. -/
inductive State where
  | data | tagOpen | endTagOpen | declaration | declarationDash | bogusComment | plaintext
  | comment (s : CommentState)
  | tag (t : Tag) (s : TagState)
  | raw (name : List Char)
  | rawOpen (name : List Char)
  | rawClose (name read : List Char)
  deriving DecidableEq, Repr

section steps

def isSpace (c : Char) : Bool := c = ' ' || c = '\n' || c = '\t' || c = '\x0c' || c = '\r'

/-- The next place in the tag behind a unit that does not end it. -/
def TagState.inside (c : Char) : TagState → TagState
  | .name => if isSpace c then .beforeAttribute else if c = '/' then .selfClosing else .name
  | .beforeAttribute | .afterValue | .selfClosing =>
    if isSpace c then .beforeAttribute else if c = '/' then .selfClosing else .attribute
  | .attribute | .afterAttribute =>
    if isSpace c then .afterAttribute else if c = '/' then .selfClosing
    else if c = '=' then .beforeValue else .attribute
  | .beforeValue =>
    if isSpace c then .beforeValue else if c = '"' then .doubleQuoted
    else if c = '\'' then .singleQuoted else .unquoted
  | .doubleQuoted => if c = '"' then .afterValue else .doubleQuoted
  | .singleQuoted => if c = '\'' then .afterValue else .singleQuoted
  | .unquoted => if isSpace c then .beforeAttribute else .unquoted

/-- A quoted value does not end at the end of the tag. -/
def TagState.quoted : TagState → Bool
  | .doubleQuoted | .singleQuoted => true
  | _ => false

/-- The next place in the comment, or none behind it. -/
def CommentState.next (c : Char) : CommentState → Option CommentState
  | .start => if c = '-' then some .startDash else if c = '>' then none else some .inside
  | .startDash => if c = '-' then some .ending else if c = '>' then none else some .inside
  | .inside => if c = '-' then some .endDash else some .inside
  | .endDash => if c = '-' then some .ending else some .inside
  | .ending =>
    if c = '>' then none else if c = '!' then some .endBang else if c = '-' then some .ending
    else some .inside
  | .endBang => if c = '-' then some .endDash else if c = '>' then none else some .inside

def rawElements : List String :=
  ["title", "textarea", "style", "xmp", "iframe", "noembed", "noframes", "noscript", "script"]

/-- Where the text behind the tag is read. -/
def State.behind (t : Tag) : State :=
  if t.closing then .data
  else if t.name = "plaintext".toList then .plaintext
  else if t.name ∈ rawElements.map String.toList then .raw t.name
  else .data

/-- One unit more of a tag. -/
def Tag.add (t : Tag) (c : Char) : TagState → Tag
  | .name => { t with name := t.name ++ [c.toLower] }
  | _ => { t with attributes := t.attributes ++ [c] }

/-- What the tokenizer does with one unit. -/
def step (c : Char) : State → State × Option Tag
  | .data => (if c = '<' then .tagOpen else .data, none)
  | .tagOpen =>
    (if c.isAlpha then .tag { closing := false, name := [c.toLower] } .name
      else if c = '/' then .endTagOpen else if c = '!' then .declaration
      else if c = '?' then .bogusComment else if c = '<' then .tagOpen else .data, none)
  | .endTagOpen =>
    (if c.isAlpha then .tag { closing := true, name := [c.toLower] } .name
      else if c = '>' then .data else .bogusComment, none)
  | .declaration =>
    (if c = '-' then .declarationDash else if c = '>' then .data else .bogusComment, none)
  | .declarationDash =>
    (if c = '-' then .comment .start else if c = '>' then .data else .bogusComment, none)
  | .bogusComment => (if c = '>' then .data else .bogusComment, none)
  | .plaintext => (.plaintext, none)
  | .comment s =>
    match s.next c with
    | some s' => (.comment s', none)
    | none => (.data, none)
  | .tag t s =>
    if c = '>' ∧ s.quoted = false then (.behind t, some t)
    else (.tag (t.add c (s.inside c)) (s.inside c), none)
  | .raw name => (if c = '<' then .rawOpen name else .raw name, none)
  | .rawOpen name =>
    (if c = '/' then .rawClose name [] else if c = '<' then .rawOpen name else .raw name, none)
  | .rawClose name read =>
    if c.isAlpha then (.rawClose name (read ++ [c.toLower]), none)
    else if read = name ∧ c = '>' then (.data, some { closing := true, name })
    else if read = name ∧ (isSpace c ∨ c = '/') then
      (.tag { closing := true, name, attributes := [c] } (TagState.inside c .name), none)
    else (if c = '<' then .rawOpen name else .raw name, none)

/-- The tags that end in the text. -/
def tagsFrom : State → List Char → List Tag
  | _, [] => []
  | s, c :: cs =>
    match step c s with
    | (s', t) => t.toList ++ tagsFrom s' cs

/-- The state behind the text. -/
def after : State → List Char → State
  | s, [] => s
  | s, c :: cs =>
    match step c s with
    | (s', _) => after s' cs

def tags (s : String) : List Tag := tagsFrom .data s.toList

lemma tagsFrom_append (s : State) (a b : List Char) :
    tagsFrom s (a ++ b) = tagsFrom s a ++ tagsFrom (after s a) b := by
  induction a generalizing s with
  | nil => rfl
  | cons c a ih =>
    change (step c s).2.toList ++ tagsFrom (step c s).1 (a ++ b) =
      ((step c s).2.toList ++ tagsFrom (step c s).1 a) ++ tagsFrom (after (step c s).1 a) b
    rw [ih, List.append_assoc]

lemma after_append (s : State) (a b : List Char) : after s (a ++ b) = after (after s a) b := by
  induction a generalizing s with
  | nil => rfl
  | cons c a ih => exact ih (step c s).1

end steps

section inertness

/-- The unit begins a tag, a comment or a declaration behind a `<`. -/
def opens (c : Char) : Bool := c.isAlpha || c = '/' || c = '!' || c = '?'

/-- No `<` of the text opens anything. -/
def Inert (t : List Char) : Prop := ∀ c, opens c = true → ¬['<', c] <:+: t

/-- Text is read here. -/
def State.isText : State → Bool
  | .data | .raw _ => true
  | _ => false

/-- The text does not complete a `<` before it. -/
def Plain (t : List Char) : Prop := ∀ c ∈ t.head?, opens c = false

variable {s : State} {t u rest : List Char}

lemma inert_of_not_mem (h : '<' ∉ t) : Inert t :=
  fun _ _ hpart => h (hpart.subset List.mem_cons_self)

lemma Inert.of_part (h : Inert t) (hu : u <:+: t) : Inert u :=
  fun c hc hpart => h c hc (hpart.trans hu)

lemma Inert.plain {c : Char} (h : Inert (c :: t)) (hc : c = '<') (hrest : Plain rest) :
    Plain (t ++ rest) := by
  cases t with
  | nil => exact hrest
  | cons d t =>
    rintro e ⟨⟩
    rw [← Bool.not_eq_true]
    intro hopens
    refine h d hopens ⟨[], t, ?_⟩
    rw [hc]
    rfl

lemma step_tagOpen (c : Char) :
    step c .tagOpen =
      (if c.isAlpha then .tag { closing := false, name := [c.toLower] } .name
        else if c = '/' then .endTagOpen else if c = '!' then .declaration
        else if c = '?' then .bogusComment else if c = '<' then .tagOpen else .data, none) := rfl

lemma step_rawOpen (c : Char) (name : List Char) :
    step c (.rawOpen name) =
      (if c = '/' then .rawClose name [] else if c = '<' then .rawOpen name else .raw name,
        none) := rfl

/-- A `<` that opens nothing is text. -/
lemma step_plain {c : Char} (h : opens c = false) : step c .tagOpen = step c .data := by
  unfold opens at h
  simp only [Bool.or_eq_false_iff, decide_eq_false_iff_not] at h
  obtain ⟨⟨⟨halpha, hslash⟩, hbang⟩, hquestion⟩ := h
  rw [step_tagOpen, halpha, if_neg Bool.false_ne_true, if_neg hslash, if_neg hbang,
    if_neg hquestion]
  rfl

lemma step_raw_plain {c : Char} (h : opens c = false) (name : List Char) :
    step c (.rawOpen name) = step c (.raw name) := by
  unfold opens at h
  simp only [Bool.or_eq_false_iff, decide_eq_false_iff_not] at h
  rw [step_rawOpen, if_neg h.1.1.2]
  rfl

lemma step_of_isText {c : Char} (hs : s.isText = true) (hc : c ≠ '<') : step c s = (s, none) := by
  cases s with
  | data =>
    change (if c = '<' then State.tagOpen else .data, none) = (State.data, none)
    rw [if_neg hc]
  | raw name =>
    change (if c = '<' then State.rawOpen name else .raw name, none) = (State.raw name, none)
    rw [if_neg hc]
  | _ => cases hs

lemma tagsFrom_cons (s : State) (c : Char) (t : List Char) :
    tagsFrom s (c :: t) = (step c s).2.toList ++ tagsFrom (step c s).1 t := rfl

/-- The unit behind a unit of text is read as if that one were not there. -/
lemma step_text {c d : Char} (hs : s.isText = true) (h : c = '<' → opens d = false) :
    (step c s).2 = none ∧ step d (step c s).1 = step d s := by
  by_cases heq : c = '<'
  · have hd : opens d = false := h heq
    subst heq
    cases s with
    | data => exact ⟨rfl, step_plain hd⟩
    | raw name => exact ⟨rfl, step_raw_plain hd name⟩
    | _ => cases hs
  · rw [step_of_isText hs heq]
    exact ⟨rfl, rfl⟩

lemma step_text_tag (c : Char) (hs : s.isText = true) : (step c s).2 = none := by
  cases s with
  | data => rfl
  | raw name => rfl
  | _ => cases hs

lemma Plain.opens_head {c d : Char} (h : c = '<' → Plain (d :: rest)) (hc : c = '<') :
    opens d = false :=
  h hc d rfl

/-- An inert text can be left out. -/
lemma tagsFrom_inert (hs : s.isText = true) (ht : Inert t) (hrest : Plain rest) :
    tagsFrom s (t ++ rest) = tagsFrom s rest := by
  induction t with
  | nil => rfl
  | cons c t ih =>
    have hplain : c = '<' → Plain (t ++ rest) := fun hc => ht.plain hc hrest
    rw [← ih (ht.of_part (List.suffix_cons c t).isInfix), List.cons_append]
    cases hcons : t ++ rest with
    | nil =>
      rw [tagsFrom_cons, step_text_tag c hs]
      rfl
    | cons d rest' =>
      rw [hcons] at hplain
      obtain ⟨hnone, hstep⟩ := step_text hs (Plain.opens_head hplain)
      rw [tagsFrom_cons, hnone, tagsFrom_cons, hstep]
      rfl

lemma after_inert {d : Char} (hs : s.isText = true) (ht : Inert t) (hrest : Plain (d :: rest)) :
    after s (t ++ d :: rest) = after s (d :: rest) := by
  induction t with
  | nil => rfl
  | cons c t ih =>
    have hplain : c = '<' → Plain (t ++ d :: rest) := fun hc => ht.plain hc hrest
    rw [← ih (ht.of_part (List.suffix_cons c t).isInfix), List.cons_append]
    cases hcons : t ++ d :: rest with
    | nil => exact absurd hcons (by simp)
    | cons e rest' =>
      rw [hcons] at hplain
      obtain ⟨-, hstep⟩ := step_text hs (Plain.opens_head hplain)
      change after (step e (step c s).1).1 rest' = after (step e s).1 rest'
      rw [hstep]

lemma after_of_isText (hs : s.isText = true) (ht : '<' ∉ t) : after s t = s := by
  induction t with
  | nil => rfl
  | cons c t ih =>
    rw [List.mem_cons, not_or] at ht
    change after (step c s).1 t = s
    rw [step_of_isText hs (Ne.symm ht.1)]
    exact ih ht.2

/-- A text without quotes stays in the quoted value. -/
lemma after_doubleQuoted (tag : Tag) (ht : '"' ∉ t) :
    after (.tag tag .doubleQuoted) t =
      .tag { tag with attributes := tag.attributes ++ t } .doubleQuoted := by
  induction t generalizing tag with
  | nil => rw [List.append_nil]; rfl
  | cons c t ih =>
    rw [List.mem_cons, not_or] at ht
    have hstep : step c (.tag tag .doubleQuoted) =
        (.tag { tag with attributes := tag.attributes ++ [c] } .doubleQuoted, none) := by
      have hinside : TagState.inside c .doubleQuoted = .doubleQuoted := if_neg (Ne.symm ht.1)
      change (if c = '>' ∧ true = false then _ else
        (State.tag (tag.add c (TagState.inside c .doubleQuoted))
          (TagState.inside c .doubleQuoted), (none : Option Tag))) = _
      rw [if_neg (fun h => Bool.noConfusion h.2), hinside]
      rfl
    change after (step c (.tag tag .doubleQuoted)).1 t = _
    rw [hstep, ih _ ht.2, List.append_assoc]
    rfl

end inertness

end Html
