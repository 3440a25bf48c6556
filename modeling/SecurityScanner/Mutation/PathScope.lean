import SecurityScanner.Lib.Url
import SecurityScanner.Mutation.Engine

/-!
# Where mutated URLs lead

The bridge hands the full URL of the target to the path mutator. A strategy that appends to
a URL with a path leaves its origin alone. The others rewrite the whole text, and the slashes
that separate the scheme from the host are doubled with the rest.
-/

namespace SecurityScanner

open JavaScript Url

/-- Scheme, host and port of an absolute URL. -/
def originOf (url : Text) : Option Origin := origin? UInt16.toNat url

/-- The mutated path is a URL with the origin `o`. -/
def InScope (o : Origin) (m : Mutation) : Prop :=
  ∃ url, m.path = some url ∧ originOf url = some o

instance (o : Origin) (m : Mutation) : Decidable (InScope o m) :=
  decidable_of_iff (m.path.bind originOf = some o) (by
    unfold InScope
    rw [Option.bind_eq_some_iff])

section appending

variable {url : Text} {o : Origin}

lemma appending_inScope (hends : AuthorityEnds UInt16.toNat url) (ho : originOf url = some o)
    {strategy : String} {reason : Text → Text} {payloads : List String} {m : Mutation}
    (hm : m ∈ PathMutator.appending strategy reason payloads url) : InScope o m := by
  obtain ⟨payload, -, rfl⟩ := List.mem_map.mp hm
  refine ⟨url ++ js payload, rfl, ?_⟩
  unfold originOf
  rw [origin?_append hends]
  exact ho

/-- The three appending strategies stay in scope. -/
theorem appending_strategies_inScope (hends : AuthorityEnds UInt16.toNat url)
    (ho : originOf url = some o) {m : Mutation}
    (hm : m ∈ PathMutator.addedExtension url ++ PathMutator.addingJunk url ++
      PathMutator.pathTraversal url) : InScope o m := by
  rcases List.mem_append.mp hm with hm | hm
  · rcases List.mem_append.mp hm with hm | hm
    · exact appending_inScope hends ho hm
    · exact appending_inScope hends ho hm
  · exact appending_inScope hends ho hm

end appending

section doubling

open PathMutator

lemma doubleSlashes_append (s t : Text) :
    doubleSlashes (s ++ t) = doubleSlashes s ++ doubleSlashes t :=
  List.flatMap_append

lemma doubleSlashes_of_not_mem {t : Text} (h : unit '/' ∉ t) : doubleSlashes t = t := by
  induction t with
  | nil => rfl
  | cons u t ih =>
    have hu : u ≠ unit '/' := fun e => h (e ▸ List.mem_cons_self)
    have ht : unit '/' ∉ t := fun hmem => h (List.mem_cons_of_mem u hmem)
    rw [doubleSlashes_cons, if_neg hu, ih ht]
    rfl

lemma dropWhile_doubleSlashes {p : UInt16 → Bool} (hp : p (unit '/') = false) (t : Text) :
    (doubleSlashes t).dropWhile p = doubleSlashes (t.dropWhile p) := by
  induction t with
  | nil => rfl
  | cons u t ih =>
    rw [doubleSlashes_cons]
    by_cases hu : u = unit '/'
    · subst hu
      simp [hp, doubleSlashes_cons]
    · rw [if_neg hu, List.singleton_append]
      by_cases hpu : p u = true
      · rw [List.dropWhile_cons_of_pos hpu, List.dropWhile_cons_of_pos hpu, ih]
      · rw [List.dropWhile_cons_of_neg hpu, List.dropWhile_cons_of_neg hpu, doubleSlashes_cons,
          if_neg hu]
        rfl

lemma filter_doubleSlashes (p : UInt16 → Bool) (t : Text) :
    (doubleSlashes t).filter p = doubleSlashes (t.filter p) := by
  induction t with
  | nil => rfl
  | cons u t ih =>
    rw [doubleSlashes_cons, List.filter_append, ih]
    by_cases hpu : p u = true
    · rw [List.filter_cons_of_pos hpu, doubleSlashes_cons]
      split <;> simp [hpu]
    · rw [List.filter_cons_of_neg hpu]
      split <;> simp [hpu]

lemma clean_doubleSlashes (t : Text) :
    clean UInt16.toNat (doubleSlashes t) = doubleSlashes (clean UInt16.toNat t) := by
  unfold clean
  rw [dropWhile_doubleSlashes (by decide), filter_doubleSlashes]

lemma doubleSlashes_scheme {scheme : Text} (h : scheme.all (isSchemeChar ∘ UInt16.toNat)) :
    doubleSlashes scheme = scheme := by
  apply doubleSlashes_of_not_mem
  intro hmem
  have hslash := List.all_eq_true.mp h _ hmem
  revert hslash
  decide

/-- An authority becomes an empty one. -/
lemma splitNetloc_doubleSlashes {rest netloc after : Text}
    (h : splitNetloc UInt16.toNat rest = some (netloc, after)) :
    ∃ after', splitNetloc UInt16.toNat (doubleSlashes rest) = some ([], after') := by
  unfold splitNetloc at h
  split at h
  · rename_i a b rest
    split at h
    · rename_i hslash
      have ha : a = unit '/' := UInt16.toNat_inj.mp hslash.1
      have hb : b = unit '/' := UInt16.toNat_inj.mp hslash.2
      subst ha hb
      exact ⟨_, rfl⟩
    · cases h
  · cases h

/-- The scheme keeps its text, and host and port are gone. -/
lemma originOf_doubleSlashes {url : Text} {o : Origin} (ho : originOf url = some o) :
    originOf (doubleSlashes url) = some { o with host := [], port := none } := by
  unfold originOf origin? at ho ⊢
  simp only [Option.bind_eq_bind, Option.bind_eq_some_iff] at ho
  obtain ⟨⟨scheme, rest⟩, hscheme, ⟨netloc, after⟩, hnetloc, port, -, hport⟩ := ho
  obtain ⟨colon, hcolon, hcs, hchars, hhead⟩ := splitScheme_eq_some hscheme
  obtain ⟨after', hdouble⟩ := splitNetloc_doubleSlashes hnetloc
  have hne : colon ≠ unit '/' := by
    rintro rfl
    cases hcolon
  have hscheme' : splitScheme UInt16.toNat (clean UInt16.toNat (doubleSlashes url)) =
      some (scheme, doubleSlashes rest) := by
    rw [clean_doubleSlashes, hcs, doubleSlashes_append, doubleSlashes_scheme hchars,
      doubleSlashes_cons, if_neg hne]
    exact splitScheme_append hcolon hchars hhead
  have ho := Option.some.inj hport
  simp only [hscheme', Option.bind_eq_bind, Option.bind_some, hdouble]
  rw [← ho]
  rfl

end doubling

/-- On no absolute URL do all path mutations keep scheme, host and port. -/
theorem path_mutations_leave_scope (case : CaseMap) (baseUrl path : Text) (o : Origin)
    (ho : originOf (MutationBridge.targetUrl baseUrl path) = some o) (hhost : o.host ≠ []) :
    ¬∀ m ∈ PathMutator.mutate case (MutationBridge.targetUrl baseUrl path), InScope o m := by
  intro hall
  have hmem : PathMutator.mutation "double_slashing:"
      (js "Testing if adding double slashes in path is accepted by server")
      (PathMutator.doubleSlashes (MutationBridge.targetUrl baseUrl path)) ∈
      PathMutator.mutate case (MutationBridge.targetUrl baseUrl path) := by
    simp [PathMutator.mutate, PathMutator.doubleSlashing]
  obtain ⟨url, hurl, horigin⟩ := hall _ hmem
  rw [← Option.some.inj hurl, originOf_doubleSlashes ho] at horigin
  apply hhost
  rw [← Option.some.inj horigin]

section example_target

def targetBase : Text := js "https://target.example:8443"

def targetOrigin (port : Nat) : Origin :=
  ⟨(js "https").map UInt16.toNat, (js "target.example").map UInt16.toNat, some port⟩

theorem path_mutations_leave_scope_users :
    ¬∀ m ∈ PathMutator.mutate asciiCase (MutationBridge.targetUrl targetBase (js "/users")),
      InScope (targetOrigin 8443) m :=
  path_mutations_leave_scope asciiCase targetBase (js "/users") _ (by decide +kernel)
    (by decide)

/-- The digits of an id stand in the port first: the request goes to the port 7443. -/
theorem path_mutations_change_port :
    originOf (MutationBridge.targetUrl targetBase (js "/users/8")) = some (targetOrigin 8443) ∧
    ∃ m ∈ PathMutator.mutate asciiCase (MutationBridge.targetUrl targetBase (js "/users/8")),
      ¬InScope (targetOrigin 8443) m ∧ InScope (targetOrigin 7443) m := by
  decide +kernel

end example_target

end SecurityScanner
