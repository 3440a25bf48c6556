import SecurityScanner.Lib.TextSearch
import SecurityScanner.Mutation.PathMutator

/-!
# The parts of a path that mutations choose

The last run of digits, the last version and the segments. Each part is a decomposition of the
path, and the scan of the code returns its text.
-/

namespace SecurityScanner

open JavaScript PathMutator

section digits

/-- The last maximal run of digits of a path, between `pre` and `post`. -/
structure LastDigits (path pre run post : Text) : Prop where
  path : path = pre ++ run ++ post
  nonempty : run ≠ []
  digits : ∀ u ∈ run, isDigit u = true
  before : ∀ u ∈ pre.getLast?, isDigit u = false
  after : ∀ u ∈ post, isDigit u = false

lemma digitRuns_of_none {t : Text} (h : ∀ u ∈ t, isDigit u = false) (run : Text) :
    digitRuns run t = if run = [] then [] else [run] := by
  induction t generalizing run with
  | nil => rfl
  | cons u t ih =>
    have hu : ¬isDigit u = true := by rw [h u List.mem_cons_self]; exact Bool.false_ne_true
    have ht := ih fun v hv => h v (List.mem_cons_of_mem u hv)
    rw [digitRuns, if_neg hu, ht, if_pos rfl]

lemma digitRuns_append_digits {digits : Text} (h : ∀ u ∈ digits, isDigit u = true)
    (run t : Text) : digitRuns run (digits ++ t) = digitRuns (run ++ digits) t := by
  induction digits generalizing run with
  | nil => rw [List.nil_append, List.append_nil]
  | cons u digits ih =>
    have hdigits := ih fun v hv => h v (List.mem_cons_of_mem u hv)
    rw [List.cons_append, digitRuns, if_pos (h u List.mem_cons_self), hdigits, List.append_assoc]
    rfl

/-- A text that ends in something else than a digit ends the run. -/
lemma digitRuns_append {pre : Text} (h : ∀ u ∈ pre.getLast?, isDigit u = false) (hne : pre ≠ [])
    (run t : Text) : ∃ runs, digitRuns run (pre ++ t) = runs ++ digitRuns [] t := by
  induction pre generalizing run with
  | nil => exact absurd rfl hne
  | cons u pre ih =>
    rw [List.cons_append, digitRuns]
    cases pre with
    | nil =>
      have hu : ¬isDigit u = true := by rw [h u rfl]; exact Bool.false_ne_true
      rw [if_neg hu, List.nil_append]
      split
      · exact ⟨[], rfl⟩
      · exact ⟨[run], rfl⟩
    | cons v pre =>
      have hlast : ∀ w ∈ (v :: pre).getLast?, isDigit w = false := by
        intro w hw
        exact h w (by rwa [List.getLast?_cons_cons])
      have hrest := ih hlast (List.cons_ne_nil v pre)
      split
      · exact hrest _
      · split
        · exact hrest []
        · obtain ⟨runs, hruns⟩ := hrest []
          exact ⟨run :: runs, by rw [hruns, List.cons_append]⟩

/-- The code chooses the last run of digits. -/
lemma getLast?_digitRuns {path pre run post : Text} (h : LastDigits path pre run post) :
    (digitRuns [] path).getLast? = some run := by
  have hrun : digitRuns [] (run ++ post) = [run] := by
    rw [digitRuns_append_digits h.digits, digitRuns_of_none h.after, List.nil_append,
      if_neg h.nonempty]
  rw [h.path, List.append_assoc]
  by_cases hpre : pre = []
  · rw [hpre, List.nil_append, hrun]
    rfl
  · obtain ⟨runs, hruns⟩ := digitRuns_append h.before hpre [] (run ++ post)
    rw [hruns, hrun, List.getLast?_concat]

/-- Every path with a digit has a last run of digits. -/
lemma exists_lastDigits {path : Text} (h : ∃ u ∈ path, isDigit u = true) :
    ∃ pre run post, LastDigits path pre run post := by
  induction path with
  | nil =>
    obtain ⟨u, hu, -⟩ := h
    cases hu
  | cons u path ih =>
    by_cases hrest : ∃ v ∈ path, isDigit v = true
    · obtain ⟨pre, run, post, hparts⟩ := ih hrest
      cases pre with
      | nil =>
        by_cases hu : isDigit u = true
        · refine ⟨[], u :: run, post, ?_, List.cons_ne_nil u run, ?_, ?_, hparts.after⟩
          · rw [hparts.path]
            rfl
          · rintro v (_ | ⟨_, hv⟩)
            · exact hu
            · exact hparts.digits v hv
          · rintro v ⟨⟩
        · refine ⟨[u], run, post, ?_, hparts.nonempty, hparts.digits, ?_, hparts.after⟩
          · rw [hparts.path]
            rfl
          · rintro v ⟨⟩
            exact Bool.not_eq_true _ ▸ hu
      | cons w pre =>
        refine ⟨u :: w :: pre, run, post, ?_, hparts.nonempty, hparts.digits, ?_, hparts.after⟩
        · rw [hparts.path]
          rfl
        · intro v hv
          rw [List.getLast?_cons_cons] at hv
          exact hparts.before v hv
    · have hafter : ∀ v ∈ path, isDigit v = false := by
        intro v hv
        rw [← Bool.not_eq_true]
        exact fun hd => hrest ⟨v, hv, hd⟩
      have hu : isDigit u = true := by
        obtain ⟨v, hv, hd⟩ := h
        rcases List.mem_cons.mp hv with rfl | hv
        · exact hd
        · exact absurd ⟨v, hv, hd⟩ hrest
      refine ⟨[], [u], path, rfl, List.cons_ne_nil u [], ?_, ?_, hafter⟩
      · rintro v (_ | ⟨_, ⟨⟩⟩)
        exact hu
      · rintro v ⟨⟩

end digits

section versions

/-- The unit of a version token. -/
def vee : UInt16 := unit 'v'

/-- A `v` with a digit behind it. -/
def HasVersion (t : Text) : Prop := ∃ a d b, t = a ++ vee :: d :: b ∧ isDigit d = true

/-- The last version of a path, between `pre` and `post`. -/
structure LastVersion (path pre digits post : Text) : Prop where
  path : path = pre ++ vee :: digits ++ post
  nonempty : digits ≠ []
  digits : ∀ u ∈ digits, isDigit u = true
  maximal : ∀ u ∈ post.head?, isDigit u = false
  after : ¬HasVersion post

lemma hasVersion_cons {u : UInt16} {t : Text} (h : HasVersion t) : HasVersion (u :: t) := by
  obtain ⟨a, d, b, rfl, hd⟩ := h
  exact ⟨u :: a, d, b, rfl, hd⟩

lemma isDigit_vee : isDigit vee = false := by decide

lemma versionTokens_of_none {t : Text} (h : ¬HasVersion t) {run : Text}
    (hhead : ∀ u ∈ t.head?, isDigit u = false ∨ run = []) :
    versionTokens run t = if run.length < 2 then [] else [run] := by
  induction t generalizing run with
  | nil => rfl
  | cons u t ih =>
    have ht : ¬HasVersion t := fun ht => h (hasVersion_cons ht)
    have hblank : versionTokens [] t = [] := by
      rw [ih ht fun _ _ => Or.inr rfl]
      rfl
    have hvee : u = unit 'v' → versionTokens [u] t = [] := by
      rintro rfl
      rw [ih ht]
      · rfl
      · intro d hd
        left
        rw [← Bool.not_eq_true]
        intro hdigit
        obtain ⟨d', b, rfl⟩ : ∃ d' b, t = d' :: b := by
          cases t with
          | nil => cases hd
          | cons d' b => exact ⟨d', b, rfl⟩
        cases hd
        exact h ⟨[], _, _, rfl, hdigit⟩
    rw [versionTokens]
    by_cases hu : u = unit 'v'
    · rw [if_pos hu, hvee hu]
    · rw [if_neg hu, hblank]
      have hnot : ¬(isDigit u && decide (run ≠ [])) = true := by
        rcases hhead u rfl with hdigit | hrun
        · simp [hdigit]
        · simp [hrun]
      rw [if_neg hnot]

lemma versionTokens_append_digits {digits : Text} (h : ∀ u ∈ digits, isDigit u = true)
    {run : Text} (hrun : run ≠ []) (t : Text) :
    versionTokens run (digits ++ t) = versionTokens (run ++ digits) t := by
  induction digits generalizing run with
  | nil => rw [List.nil_append, List.append_nil]
  | cons u digits ih =>
    have hdigit := h u List.mem_cons_self
    have hu : u ≠ unit 'v' := by
      rintro rfl
      exact absurd hdigit (by decide)
    have hcond : (isDigit u && decide (run ≠ [])) = true := by simp [hdigit, hrun]
    rw [List.cons_append, versionTokens, if_neg hu, if_pos hcond,
      ih (fun v hv => h v (List.mem_cons_of_mem u hv)) (by simp), List.append_assoc]
    rfl

/-- A `v` starts a token, whatever comes before it. -/
lemma versionTokens_append (pre run t : Text) :
    ∃ tokens, versionTokens run (pre ++ vee :: t) = tokens ++ versionTokens [vee] t := by
  induction pre generalizing run with
  | nil =>
    have hvee : vee = unit 'v' := rfl
    rw [List.nil_append, versionTokens, if_pos hvee]
    split
    · exact ⟨[], rfl⟩
    · exact ⟨[run], rfl⟩
  | cons u pre ih =>
    have hcons (token run' : Text) : ∃ tokens,
        token :: versionTokens run' (pre ++ vee :: t) = tokens ++ versionTokens [vee] t := by
      obtain ⟨tokens, htokens⟩ := ih run'
      exact ⟨token :: tokens, by rw [htokens, List.cons_append]⟩
    rw [List.cons_append, versionTokens]
    split
    · split
      · exact ih [u]
      · exact hcons run [u]
    · split
      · exact ih (run ++ [u])
      · split
        · exact ih []
        · exact hcons run []

/-- The code chooses the last version. -/
lemma getLast?_versionTokens {path pre digits post : Text} (h : LastVersion path pre digits post) :
    (versionTokens [] path).getLast? = some (vee :: digits) := by
  have hlength : ¬(vee :: digits).length < 2 := by
    have hpos := List.length_pos_iff.mpr h.nonempty
    rw [List.length_cons]
    omega
  have htoken : versionTokens [vee] (digits ++ post) = [vee :: digits] := by
    rw [versionTokens_append_digits h.digits (List.cons_ne_nil _ _), List.singleton_append,
      versionTokens_of_none h.after fun u hu => Or.inl (h.maximal u hu), if_neg hlength]
  obtain ⟨tokens, htokens⟩ := versionTokens_append pre [] (digits ++ post)
  have hpath : path = pre ++ vee :: (digits ++ post) := by
    rw [h.path, List.append_assoc]
    rfl
  rw [hpath, htokens, htoken, List.getLast?_concat]

/-- Every path with a version has a last one. -/
lemma exists_lastVersion {path : Text} (h : HasVersion path) :
    ∃ pre digits post, LastVersion path pre digits post := by
  induction path with
  | nil =>
    obtain ⟨a, d, b, heq, -⟩ := h
    cases a <;> cases heq
  | cons u path ih =>
    by_cases hrest : HasVersion path
    · obtain ⟨pre, digits, post, hparts⟩ := ih hrest
      refine ⟨u :: pre, digits, post, ?_, hparts.nonempty, hparts.digits, hparts.maximal,
        hparts.after⟩
      rw [hparts.path]
      rfl
    · obtain ⟨a, d, b, heq, hd⟩ := h
      cases a with
      | cons w a =>
        injection heq with _ heq
        exact absurd ⟨a, d, b, heq, hd⟩ hrest
      | nil =>
        injection heq with hu hpath
        have hsplit : (d :: b).takeWhile isDigit ++ (d :: b).dropWhile isDigit = path :=
          List.takeWhile_append_dropWhile.trans hpath.symm
        refine ⟨[], (d :: b).takeWhile isDigit, (d :: b).dropWhile isDigit, ?_, ?_, ?_, ?_, ?_⟩
        · rw [hu, ← hsplit]
          rfl
        · rw [List.takeWhile_cons_of_pos hd]
          exact List.cons_ne_nil _ _
        · exact List.all_eq_true.mp List.all_takeWhile
        · intro v hv
          have hnot := List.head?_dropWhile_not isDigit (d :: b)
          rw [hv] at hnot
          exact hnot
        · rintro ⟨a, d', b', heq', hd'⟩
          apply hrest
          refine ⟨(d :: b).takeWhile isDigit ++ a, d', b', ?_, hd'⟩
          rw [← hsplit, heq', List.append_assoc]

end versions

section segments

/-- A whole segment of a path, between `pre` and `post`. -/
structure WholeSegment (path pre segment post : Text) : Prop where
  path : path = pre ++ segment ++ post
  starts : ∀ u ∈ pre.getLast?, u = unit '/'
  ends : ∀ u ∈ post.head?, u = unit '/'

lemma not_mem_of_mem_split {separator : UInt16} {t segment : Text}
    (h : segment ∈ split separator t) : separator ∉ segment := by
  induction t generalizing segment with
  | nil =>
    rw [split, List.mem_singleton] at h
    rw [h]
    exact List.not_mem_nil
  | cons u t ih =>
    rw [split] at h
    split at h
    · rcases List.mem_cons.mp h with rfl | h
      · exact List.not_mem_nil
      · exact ih h
    · rename_i hu
      split at h
      · rw [List.mem_singleton] at h
        rw [h, List.mem_singleton]
        exact Ne.symm hu
      · rename_i s rest hsplit
        rcases List.mem_cons.mp h with rfl | h
        · have hs : separator ∉ s := ih (by rw [hsplit]; exact List.mem_cons_self)
          rw [List.mem_cons, not_or]
          exact ⟨Ne.symm hu, hs⟩
        · exact ih (by rw [hsplit]; exact List.mem_cons_of_mem s h)

/-- The first segment starts the text, and a separator precedes each of the others. -/
lemma split_eq_cons {separator : UInt16} {t s : Text} {rest : List Text}
    (h : split separator t = s :: rest) :
    (∃ post, t = s ++ post ∧ ∀ u ∈ post.head?, u = separator) ∧
      ∀ segment ∈ rest, ∃ pre post, t = pre ++ [separator] ++ segment ++ post ∧
        ∀ u ∈ post.head?, u = separator := by
  induction t generalizing s rest with
  | nil =>
    obtain ⟨rfl, rfl⟩ := List.cons.inj h
    refine ⟨⟨[], rfl, ?_⟩, ?_⟩
    · rintro u ⟨⟩
    · rintro segment ⟨⟩
  | cons u t ih =>
    obtain ⟨s', rest', hsplit⟩ : ∃ s' rest', split separator t = s' :: rest' := by
      cases t with
      | nil => exact ⟨[], [], rfl⟩
      | cons v t =>
        rw [split]
        split
        · exact ⟨_, _, rfl⟩
        · split <;> exact ⟨_, _, rfl⟩
    obtain ⟨⟨post, ht, hpost⟩, hrest⟩ := ih hsplit
    rw [split, hsplit] at h
    by_cases hu : u = separator
    · rw [if_pos hu] at h
      obtain ⟨rfl, rfl⟩ := List.cons.inj h
      refine ⟨⟨u :: t, rfl, ?_⟩, ?_⟩
      · rintro v ⟨⟩
        exact hu
      · intro segment hsegment
        rcases List.mem_cons.mp hsegment with rfl | hsegment
        · refine ⟨[], post, ?_, hpost⟩
          rw [hu, ht]
          rfl
        · obtain ⟨pre, post, ht', hpost⟩ := hrest segment hsegment
          refine ⟨u :: pre, post, ?_, hpost⟩
          rw [ht']
          rfl
    · rw [if_neg hu] at h
      obtain ⟨rfl, rfl⟩ := List.cons.inj h
      refine ⟨⟨post, ?_, hpost⟩, ?_⟩
      · rw [ht]
        rfl
      · intro segment hsegment
        obtain ⟨pre, post, ht', hpost⟩ := hrest segment hsegment
        refine ⟨u :: pre, post, ?_, hpost⟩
        rw [ht']
        rfl

/-- What the split returns stands between slashes. -/
lemma exists_wholeSegment {path segment : Text} (h : segment ∈ split (unit '/') path) :
    ∃ pre post, WholeSegment path pre segment post := by
  cases hsplit : split (unit '/') path with
  | nil =>
    rw [hsplit] at h
    cases h
  | cons s rest =>
    obtain ⟨⟨post, hpath, hpost⟩, hrest⟩ := split_eq_cons hsplit
    rw [hsplit] at h
    rcases List.mem_cons.mp h with rfl | h
    · refine ⟨[], post, hpath, ?_, hpost⟩
      rintro u ⟨⟩
    · obtain ⟨pre, post, hpath, hpost⟩ := hrest segment h
      refine ⟨pre ++ [unit '/'], post, hpath, ?_, hpost⟩
      intro u hu
      rw [List.getLast?_concat] at hu
      exact (Option.some.inj hu).symm

end segments

end SecurityScanner
