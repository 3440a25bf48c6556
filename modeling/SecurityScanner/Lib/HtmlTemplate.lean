import SecurityScanner.Lib.Html

/-!
# Templates of HTML

A template is markup with values in between. Values that stand in text and open nothing leave
to the template the tags of its markup alone.
-/

namespace Html

inductive Fragment where
  | markup (text : String)
  | value (text : String)

namespace Fragment

def text : Fragment → List Char
  | .markup t => t.toList
  | .value t => t.toList

def markupText : Fragment → List Char
  | .markup t => t.toList
  | .value _ => []

/-- The values that stand in the fragment. -/
def values : Fragment → List String
  | .markup _ => []
  | .value t => [t]

end Fragment

section rendering

def chars (fs : List Fragment) : List Char := fs.flatMap Fragment.text

/-- The markup alone. -/
def skeleton (fs : List Fragment) : List Char := fs.flatMap Fragment.markupText

def valuesOf (fs : List Fragment) : List String := fs.flatMap Fragment.values

def render (fs : List Fragment) : String := String.ofList (chars fs)

lemma tags_render (fs : List Fragment) : tags (render fs) = tagsFrom .data (chars fs) := by
  unfold tags render
  rw [String.toList_ofList]

lemma chars_cons (f : Fragment) (fs : List Fragment) : chars (f :: fs) = f.text ++ chars fs :=
  List.flatMap_cons

lemma chars_append (fs gs : List Fragment) : chars (fs ++ gs) = chars fs ++ chars gs :=
  List.flatMap_append

lemma skeleton_append (fs gs : List Fragment) :
    skeleton (fs ++ gs) = skeleton fs ++ skeleton gs :=
  List.flatMap_append

lemma flatMap_intercalate {α β : Type} (f : α → List β) (separator : List α)
    (blocks : List (List α)) :
    (List.intercalate separator blocks).flatMap f =
      List.intercalate (separator.flatMap f) (blocks.map (List.flatMap f)) := by
  induction blocks with
  | nil => rfl
  | cons block blocks ih =>
    cases blocks with
    | nil => simp
    | cons next blocks =>
      rw [List.intercalate_cons_cons, List.flatMap_append, List.flatMap_append, ih]
      exact (List.intercalate_cons_cons ..).symm

end rendering

section placement

/-- What follows is markup that does not complete a `<`. -/
def separated : List Fragment → Bool
  | .markup t :: _ => t.toList.head?.any fun c => !opens c
  | _ => false

/-- Each value stands in text and ends at markup. -/
def placed : State → List Fragment → Bool
  | _, [] => true
  | s, .markup t :: fs => placed (after s t.toList) fs
  | s, .value _ :: fs => s.isText && separated fs && placed s fs

/-- The template fits between the states. -/
structure Fits (s : State) (fs : List Fragment) (s' : State) : Prop where
  values : placed s fs = true
  behind : after s (skeleton fs) = s'

variable {s s' s'' : State} {fs gs : List Fragment}

lemma separated_append (h : separated fs = true) : separated (fs ++ gs) = true := by
  cases fs with
  | nil => cases h
  | cons f fs =>
    cases f with
    | markup t => exact h
    | value t => cases h

lemma placed_value {t : String} (h : placed s (.value t :: fs) = true) :
    s.isText = true ∧ separated fs = true ∧ placed s fs = true := by
  change (s.isText && separated fs && placed s fs) = true at h
  rw [Bool.and_eq_true, Bool.and_eq_true] at h
  exact ⟨h.1.1, h.1.2, h.2⟩

lemma placed_append (hfs : placed s fs = true) (hgs : placed (after s (skeleton fs)) gs = true) :
    placed s (fs ++ gs) = true := by
  induction fs generalizing s with
  | nil => exact hgs
  | cons f fs ih =>
    cases f with
    | markup t =>
      refine ih hfs ?_
      rw [← after_append]
      exact hgs
    | value t =>
      obtain ⟨htext, hseparated, hplaced⟩ := placed_value hfs
      change (s.isText && separated (fs ++ gs) && placed s (fs ++ gs)) = true
      rw [htext, separated_append hseparated, ih hplaced hgs]
      rfl

namespace Fits

lemma nil (s : State) : Fits s [] s := ⟨rfl, rfl⟩

/-- The units of the literal are those of `l`, which no proof has to decode. -/
lemma markup {l : List Char} (s₁ : State) (h : after s l = s₁) (hfs : Fits s₁ fs s') :
    Fits s (.markup (String.ofList l) :: fs) s' := by
  obtain ⟨hplaced, hafter⟩ := hfs
  constructor
  · change placed (after s (String.ofList l).toList) fs = true
    rw [String.toList_ofList, h]
    exact hplaced
  · change after s ((String.ofList l).toList ++ skeleton fs) = s'
    rw [String.toList_ofList, after_append, h]
    exact hafter

/-- A text without quotes stays in the quoted value. -/
lemma quoted {tag : Tag} {t : String} (ht : '"' ∉ t.toList)
    (hfs : Fits (.tag { tag with attributes := tag.attributes ++ t.toList } .doubleQuoted) fs s') :
    Fits (.tag tag .doubleQuoted) (.markup t :: fs) s' := by
  obtain ⟨hplaced, hafter⟩ := hfs
  rw [← after_doubleQuoted tag ht] at hplaced hafter
  refine ⟨hplaced, ?_⟩
  change after (.tag tag .doubleQuoted) (t.toList ++ skeleton fs) = s'
  rw [after_append]
  exact hafter

lemma value {c : Char} {l : List Char} (t : String) (hs : s.isText = true)
    (hc : opens c = false) (hfs : Fits s (.markup (String.ofList (c :: l)) :: fs) s') :
    Fits s (.value t :: .markup (String.ofList (c :: l)) :: fs) s' := by
  obtain ⟨hplaced, hafter⟩ := hfs
  refine ⟨?_, hafter⟩
  change (s.isText && (String.ofList (c :: l)).toList.head?.any (fun d => !opens d) &&
    placed s (.markup (String.ofList (c :: l)) :: fs)) = true
  rw [hs, hplaced, String.toList_ofList]
  simp [hc]

/-- Markup without tags fits into text. -/
lemma texts {ts : List String} (hs : s.isText = true) (h : ∀ t ∈ ts, '<' ∉ t.toList) :
    Fits s (ts.map .markup) s := by
  induction ts with
  | nil => exact nil s
  | cons t ts ih =>
    have ht : after s t.toList = s := after_of_isText hs (h t List.mem_cons_self)
    obtain ⟨hplaced, hafter⟩ := ih fun u hu => h u (List.mem_cons_of_mem t hu)
    constructor
    · change placed (after s t.toList) (ts.map .markup) = true
      rw [ht]
      exact hplaced
    · change after s (t.toList ++ skeleton (ts.map .markup)) = s
      rw [after_append, ht]
      exact hafter

lemma append (hfs : Fits s fs s') (hgs : Fits s' gs s'') : Fits s (fs ++ gs) s'' := by
  obtain ⟨hplaced, hafter⟩ := hfs
  constructor
  · apply placed_append hplaced
    rw [hafter]
    exact hgs.1
  · rw [skeleton_append, after_append, hafter]
    exact hgs.2

lemma flatten {blocks : List (List Fragment)} (h : ∀ block ∈ blocks, Fits s block s) :
    Fits s blocks.flatten s := by
  induction blocks with
  | nil => exact nil s
  | cons block blocks ih =>
    rw [List.flatten_cons]
    exact (h block List.mem_cons_self).append
      (ih fun b hb => h b (List.mem_cons_of_mem block hb))

lemma intercalate {blocks : List (List Fragment)} {separator : List Fragment}
    (hseparator : Fits s separator s) (h : ∀ block ∈ blocks, Fits s block s) :
    Fits s (List.intercalate separator blocks) s := by
  induction blocks with
  | nil => exact nil s
  | cons block blocks ih =>
    have hblock : Fits s block s := h block List.mem_cons_self
    have hrest := ih fun b hb => h b (List.mem_cons_of_mem block hb)
    cases blocks with
    | nil => simpa using hblock
    | cons next blocks =>
      rw [List.intercalate_cons_cons]
      exact (hblock.append hseparator).append hrest

end Fits

lemma chars_of_separated (h : separated fs = true) :
    ∃ d rest, chars fs = d :: rest ∧ opens d = false := by
  cases fs with
  | nil => cases h
  | cons f fs =>
    cases f with
    | value t => cases h
    | markup t =>
      change (t.toList.head?.any fun c => !opens c) = true at h
      cases ht : t.toList with
      | nil =>
        rw [ht] at h
        cases h
      | cons d t' =>
        rw [ht] at h
        refine ⟨d, t' ++ chars fs, ?_, by simpa using h⟩
        change t.toList ++ chars fs = _
        rw [ht]
        rfl

lemma plain_cons {d : Char} (rest : List Char) (h : opens d = false) : Plain (d :: rest) := by
  rintro c ⟨⟩
  exact h

/-- Each value of the template opens nothing. -/
def AllInert (fs : List Fragment) : Prop := ∀ t ∈ valuesOf fs, Inert t.toList

@[simp] lemma allInert_nil : AllInert [] := fun _ ht => absurd ht List.not_mem_nil

@[simp] lemma allInert_markup (t : String) : AllInert (.markup t :: fs) ↔ AllInert fs := Iff.rfl

@[simp] lemma allInert_value (t : String) :
    AllInert (.value t :: fs) ↔ Inert t.toList ∧ AllInert fs :=
  List.forall_mem_cons

namespace AllInert

lemma append (hfs : AllInert fs) (hgs : AllInert gs) : AllInert (fs ++ gs) := by
  unfold AllInert valuesOf
  rw [List.flatMap_append]
  intro t ht
  rcases List.mem_append.mp ht with ht | ht
  · exact hfs t ht
  · exact hgs t ht

lemma flatten {blocks : List (List Fragment)} (h : ∀ block ∈ blocks, AllInert block) :
    AllInert blocks.flatten := by
  induction blocks with
  | nil => exact allInert_nil
  | cons block blocks ih =>
    exact (h block List.mem_cons_self).append
      (ih fun b hb => h b (List.mem_cons_of_mem block hb))

lemma intercalate {blocks : List (List Fragment)} {separator : List Fragment}
    (hseparator : AllInert separator) (h : ∀ block ∈ blocks, AllInert block) :
    AllInert (List.intercalate separator blocks) := by
  induction blocks with
  | nil => exact allInert_nil
  | cons block blocks ih =>
    have hblock : AllInert block := h block List.mem_cons_self
    have hrest := ih fun b hb => h b (List.mem_cons_of_mem block hb)
    cases blocks with
    | nil => simpa using hblock
    | cons next blocks =>
      rw [List.intercalate_cons_cons]
      exact (hblock.append hseparator).append hrest

end AllInert

/-- Values that open nothing leave the tags of the markup. -/
theorem tagsFrom_chars (hfs : placed s fs = true) (hvalues : AllInert fs) :
    tagsFrom s (chars fs) = tagsFrom s (skeleton fs) := by
  induction fs generalizing s with
  | nil => rfl
  | cons f fs ih =>
    cases f with
    | markup t =>
      calc tagsFrom s (t.toList ++ chars fs)
          = tagsFrom s t.toList ++ tagsFrom (after s t.toList) (chars fs) := tagsFrom_append ..
        _ = tagsFrom s t.toList ++ tagsFrom (after s t.toList) (skeleton fs) := by
            rw [ih hfs hvalues]
        _ = tagsFrom s (t.toList ++ skeleton fs) := (tagsFrom_append ..).symm
    | value t =>
      obtain ⟨htext, hseparated, hplaced⟩ := placed_value hfs
      obtain ⟨d, rest, hchars, hd⟩ := chars_of_separated hseparated
      obtain ⟨hinert, hrest⟩ := (allInert_value t).mp hvalues
      have hplain : Plain (chars fs) := by
        rw [hchars]
        exact plain_cons rest hd
      calc tagsFrom s (t.toList ++ chars fs)
          = tagsFrom s (chars fs) := tagsFrom_inert htext hinert hplain
        _ = tagsFrom s (skeleton fs) := ih hplaced hrest

lemma after_chars (hfs : placed s fs = true) (hvalues : AllInert fs) :
    after s (chars fs) = after s (skeleton fs) := by
  induction fs generalizing s with
  | nil => rfl
  | cons f fs ih =>
    cases f with
    | markup t =>
      change after s (t.toList ++ chars fs) = after s (t.toList ++ skeleton fs)
      rw [after_append, after_append]
      exact ih hfs hvalues
    | value t =>
      obtain ⟨htext, hseparated, hplaced⟩ := placed_value hfs
      obtain ⟨d, rest, hchars, hd⟩ := chars_of_separated hseparated
      obtain ⟨hinert, hrest⟩ := (allInert_value t).mp hvalues
      have hafter : after s (t.toList ++ chars fs) = after s (chars fs) := by
        rw [hchars]
        exact after_inert htext hinert (plain_cons rest hd)
      exact hafter.trans (ih hplaced hrest)

/-- The tags of what stands behind a template. -/
theorem Fits.tagsFrom_append (h : Fits s fs s') (hvalues : AllInert fs)
    (gs : List Fragment) :
    tagsFrom s (chars (fs ++ gs)) = tagsFrom s (skeleton fs) ++ tagsFrom s' (chars gs) := by
  obtain ⟨hplaced, hafter⟩ := h
  rw [chars_append, Html.tagsFrom_append, tagsFrom_chars hplaced hvalues,
    after_chars hplaced hvalues, hafter]

end placement

end Html
