import SecurityScanner.Executor.DelayedQueue

/-!
# The stored tasks of a queue

Every value that a priority list or the delayed set holds, and what the Redis commands of
the workers do to the collection of them.
-/

namespace SecurityScanner

open Storage Interleaving

variable {δ : Type}

/-- The values in the priority lists and in the delayed set. -/
def Redis.stored (R : Redis δ) : List δ :=
  R.lists .critical ++ R.lists .high ++ R.lists .medium ++ R.lists .low ++ R.delayed.members

lemma Redis.mem_stored {R : Redis δ} {d : δ} :
    d ∈ R.stored ↔ (∃ q, d ∈ R.lists q) ∨ d ∈ R.delayed.members := by
  unfold Redis.stored
  simp only [List.mem_append]
  constructor
  · rintro ((((h | h) | h) | h) | h)
    · exact Or.inl ⟨.critical, h⟩
    · exact Or.inl ⟨.high, h⟩
    · exact Or.inl ⟨.medium, h⟩
    · exact Or.inl ⟨.low, h⟩
    · exact Or.inr h
  · rintro (⟨q, h⟩ | h)
    · cases q <;> simp [h]
    · exact Or.inr h

lemma stored_dequeue {R : Redis δ} {q : PriorityQueue} {d : δ} {ds : List δ}
    (h : R.lists q = d :: ds) :
    R.stored.Perm (d :: { R with lists := Function.update R.lists q ds }.stored) := by
  classical
  rw [List.perm_iff_count]
  intro x
  have hq : (R.lists q).count x = ds.count x + if d = x then 1 else 0 := by
    rw [h, List.count_cons]
    simp
  cases q <;>
    simp only [Redis.stored, List.count_append, List.count_cons, Function.update_self, ne_eq,
      reduceCtorEq, not_false_eq_true, Function.update_of_ne, beq_iff_eq, hq] <;>
    omega

/-- `BLPOP` takes one stored value out. -/
lemma stored_blpop {R : Redis δ} {qs : List PriorityQueue} {q : PriorityQueue} {d : δ}
    (h : (R.blpop qs).1 = some (q, d)) : R.stored.Perm (d :: (R.blpop qs).2.stored) := by
  rcases R.blpop_cases qs with ⟨hpop, -⟩ | ⟨q', d', ds, hq, hpop⟩
  · rw [hpop] at h
    cases h
  · rw [hpop] at h ⊢
    cases h
    exact stored_dequeue hq

lemma blpop_eq_none {R : Redis δ} {qs : List PriorityQueue} (h : (R.blpop qs).1 = none) :
    (R.blpop qs).2 = R := by
  rcases R.blpop_cases qs with ⟨hpop, -⟩ | ⟨q', d', ds, hq, hpop⟩
  · rw [hpop]
  · rw [hpop] at h
    cases h

variable (codec : Codec δ)

/-- Every value goes to one of the four lists. -/
lemma route_perm (read : List δ) :
    (read.filter (fun d => route codec d = .critical) ++
      read.filter (fun d => route codec d = .high) ++
      read.filter (fun d => route codec d = .medium) ++
      read.filter (fun d => route codec d = .low)).Perm read := by
  classical
  rw [List.perm_iff_count]
  intro x
  induction read with
  | nil => rfl
  | cons d ds ih =>
    simp only [List.count_append] at ih ⊢
    cases h : route codec d <;>
      simp only [List.filter_cons, h, decide_true, reduceCtorEq, decide_false, ↓reduceIte,
        Bool.false_eq_true, List.count_cons] <;>
      omega

variable [DecidableEq δ] {codec}

/-- A transaction whose entries are due loses the due entries that it did not read. -/
lemma stored_move {R : Redis δ} {now : ℚ} {read lost : List δ}
    (hdue : (R.delayed.inRange 0 now).Perm (read ++ lost))
    (hdec : ∀ d ∈ read, (codec.validate d).isSome) {grouped : List (PriorityQueue × List δ)}
    (hg : groupDueTasks codec read [] = .ok grouped) :
    R.stored.Perm ((R.multi (moveCommands grouped now)).stored ++ lost) := by
  obtain ⟨grouped', hok, -, hcont⟩ := groupDueTasks_spec codec hdec [] List.nodup_nil
  obtain rfl : grouped = grouped' := Except.ok.inj (hg.symm.trans hok)
  have hlists : ∀ q, contents grouped q = read.filter (fun d => route codec d = q) := by
    intro q
    rw [hcont q, contents_nil, List.nil_append]
  have hmembers := R.delayed.members_perm_zremrangebyscore 0 now
  have hroute := route_perm codec read
  rw [multi_moveCommands, List.perm_iff_count]
  intro d
  have h₁ := hmembers.count_eq d
  have h₂ := hdue.count_eq d
  have h₃ := hroute.count_eq d
  simp only [Redis.stored, hlists, List.count_append] at h₁ h₂ h₃ ⊢
  omega

lemma mem_stored_zadd (codec : Codec δ) (R : Redis δ) (d x : δ) (score : ℚ) :
    x ∈ ({ R with delayed := R.delayed.zadd codec.before d score } : Redis δ).stored ↔
      x = d ∨ x ∈ R.stored := by
  simp only [Redis.mem_stored, (R.delayed.members_zadd_perm codec.before d score).mem_iff,
    List.mem_cons]
  by_cases hx : x = d
  · simp [hx]
  · rw [List.mem_erase_of_ne hx]
    simp [hx]

lemma stored_zadd {R : Redis δ} {d : δ} (hd : d ∉ R.delayed.members) (score : ℚ) :
    ({ R with delayed := R.delayed.zadd codec.before d score } : Redis δ).stored.Perm
      (d :: R.stored) := by
  have h := R.delayed.members_zadd_perm codec.before d score
  rw [List.erase_of_not_mem hd] at h
  rw [List.perm_iff_count]
  intro x
  have hx := h.count_eq x
  simp only [Redis.stored, List.count_append, List.count_cons] at hx ⊢
  omega

end SecurityScanner
