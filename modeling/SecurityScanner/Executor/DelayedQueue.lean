import SecurityScanner.Executor.Engine
import Mathlib.Data.List.Perm.Subperm
import Mathlib.Data.Nat.Cast.Order.Ring

/-!
# The mover of delayed tasks

`_process_delayed_tasks` reads at most 50 due entries and then, in one transaction, appends
them to the priority lists and removes every entry that is due. The two agree exactly when
the entries it read are the entries that are due at the transaction.
-/

namespace SecurityScanner

open Storage Interleaving

variable {δ : Type} (codec : Codec δ)

/-- The priority list a stored task belongs to. -/
def route (d : δ) : PriorityQueue :=
  match codec.validate d with
  | some p => getPriorityQueue p.priorityLevel
  | none => .medium

/-- What a grouping holds for one list. -/
def contents (grouped : List (PriorityQueue × List δ)) (q : PriorityQueue) : List δ :=
  (grouped.filter (fun g => g.1 = q)).flatMap Prod.snd

@[simp] lemma contents_nil (q : PriorityQueue) : contents ([] : List (PriorityQueue × List δ)) q = [] :=
  rfl

lemma contents_cons (g : PriorityQueue × List δ) (gs : List (PriorityQueue × List δ))
    (q : PriorityQueue) :
    contents (g :: gs) q = (if g.1 = q then g.2 else []) ++ contents gs q := by
  unfold contents
  by_cases h : g.1 = q <;> simp [h]

lemma contents_of_not_mem {grouped : List (PriorityQueue × List δ)} {q : PriorityQueue}
    (h : q ∉ grouped.map Prod.fst) : contents grouped q = [] := by
  induction grouped with
  | nil => rfl
  | cons g gs ih =>
    simp only [List.map_cons, List.mem_cons, not_or] at h
    rw [contents_cons, if_neg (Ne.symm h.1), ih h.2, List.nil_append]

lemma keys_appendTo (q : PriorityQueue) (d : δ) (grouped : List (PriorityQueue × List δ)) :
    (appendTo q d grouped).map Prod.fst =
      if q ∈ grouped.map Prod.fst then grouped.map Prod.fst else grouped.map Prod.fst ++ [q] := by
  induction grouped with
  | nil => simp [appendTo]
  | cons g gs ih =>
    unfold appendTo
    by_cases h : g.1 = q
    · simp [h]
    · simp only [h, ↓reduceIte, List.map_cons, ih, List.mem_cons, Ne.symm h, false_or]
      split <;> simp

lemma contents_appendTo (q : PriorityQueue) (d : δ) {grouped : List (PriorityQueue × List δ)}
    (h : (grouped.map Prod.fst).Nodup) (q' : PriorityQueue) :
    contents (appendTo q d grouped) q' = contents grouped q' ++ if q = q' then [d] else [] := by
  induction grouped with
  | nil => simp [appendTo, contents_cons]
  | cons g gs ih =>
    rw [List.map_cons, List.nodup_cons] at h
    unfold appendTo
    by_cases hg : g.1 = q
    · subst hg
      rw [if_pos rfl, contents_cons, contents_cons]
      by_cases hq : g.1 = q'
      · have hgs := contents_of_not_mem (hq ▸ h.1)
        simp [hq, hgs]
      · simp [hq]
    · rw [if_neg hg, contents_cons, contents_cons, ih h.2, List.append_assoc]

/-- The routing loop keeps the order of the tasks of each list. -/
lemma groupDueTasks_spec {due : List δ} (hdue : ∀ d ∈ due, (codec.validate d).isSome)
    (acc : List (PriorityQueue × List δ)) (hacc : (acc.map Prod.fst).Nodup) :
    ∃ grouped, groupDueTasks codec due acc = .ok grouped ∧ (grouped.map Prod.fst).Nodup ∧
      ∀ q, contents grouped q = contents acc q ++ due.filter (fun d => route codec d = q) := by
  induction due generalizing acc with
  | nil => exact ⟨acc, rfl, hacc, by simp⟩
  | cons d ds ih =>
    obtain ⟨p, hp⟩ := Option.isSome_iff_exists.mp (hdue d List.mem_cons_self)
    have hroute : route codec d = getPriorityQueue p.priorityLevel := by simp [route, hp]
    have hkeys : ((appendTo (getPriorityQueue p.priorityLevel) d acc).map Prod.fst).Nodup := by
      rw [keys_appendTo]
      split
      · exact hacc
      · rename_i hq
        rw [List.nodup_append]
        refine ⟨hacc, List.nodup_singleton _, fun a ha b hb hab => hq ?_⟩
        rw [← List.mem_singleton.mp hb, ← hab]
        exact ha
    obtain ⟨grouped, hok, hnodup, hcont⟩ :=
      ih (fun x hx => hdue x (List.mem_cons_of_mem _ hx)) _ hkeys
    refine ⟨grouped, by simp [groupDueTasks, hp, hok], hnodup, fun q => ?_⟩
    rw [hcont, contents_appendTo _ _ hacc, List.filter_cons, hroute, List.append_assoc]
    by_cases hq : getPriorityQueue p.priorityLevel = q <;> simp [hq]

lemma multi_rpush (R : Redis δ) (grouped : List (PriorityQueue × List δ)) :
    R.multi (grouped.map fun g => .rpush g.1 g.2) =
      { R with lists := fun q => R.lists q ++ contents grouped q } := by
  induction grouped generalizing R with
  | nil => simp [Redis.multi]
  | cons g gs ih =>
    change (R.write (.rpush g.1 g.2)).multi _ = _
    rw [ih]
    simp only [Redis.write, Redis.rpush]
    congr 1
    funext q
    by_cases hq : g.1 = q
    · subst hq
      simp [contents_cons]
    · simp [contents_cons, hq, Function.update_of_ne (Ne.symm hq)]

/-- What the transaction of a mover does. -/
lemma multi_moveCommands (R : Redis δ) (grouped : List (PriorityQueue × List δ)) (now : ℚ) :
    R.multi (moveCommands grouped now) =
      { R with
        lists := fun q => R.lists q ++ contents grouped q
        delayed := R.delayed.zremrangebyscore 0 now } := by
  have h : R.multi (moveCommands grouped now) =
      (R.multi (grouped.map fun g => .rpush g.1 g.2)).write (.zremrangebyscore 0 now) := by
    simp [Redis.multi, moveCommands, List.foldl_append]
  rw [h, multi_rpush]
  rfl

lemma groupDueTasks_dump (payloads : List QueuePayload)
    (acc : List (PriorityQueue × List δ)) :
    groupDueTasks codec (payloads.map codec.dump) acc = .ok (payloads.foldl
      (fun grouped p => appendTo (getPriorityQueue p.priorityLevel) (codec.dump p) grouped) acc) := by
  induction payloads generalizing acc with
  | nil => rfl
  | cons p ps ih =>
    simp only [List.map_cons, groupDueTasks, codec.validate_dump, List.foldl_cons]
    exact ih _

/-- A batch reaches the lists of its payloads, in their order. -/
lemma multi_batchCommands (R : Redis δ) (payloads : List QueuePayload) :
    R.multi (batchCommands codec payloads) = { R with
      lists := fun q => R.lists q ++ (payloads.map codec.dump).filter (route codec · = q) } := by
  have hdec : ∀ d ∈ payloads.map codec.dump, (codec.validate d).isSome := by
    intro d hd
    obtain ⟨p, -, rfl⟩ := List.mem_map.mp hd
    rw [codec.validate_dump]
    rfl
  obtain ⟨grouped, hok, -, hcont⟩ := groupDueTasks_spec codec hdec [] List.nodup_nil
  obtain rfl := Except.ok.inj ((groupDueTasks_dump codec payloads []).symm.trans hok)
  unfold batchCommands
  rw [multi_rpush]
  simp only [hcont, contents_nil, List.nil_append]

variable {codec} in
/-- What the transaction of a mover appends is what the mover read. -/
lemma mem_moveCommands {read : List δ} (hdec : ∀ d ∈ read, (codec.validate d).isSome)
    {grouped : List (PriorityQueue × List δ)} (hg : groupDueTasks codec read [] = .ok grouped)
    (now : ℚ) (d : δ) :
    (∃ q data, RedisWrite.rpush q data ∈ moveCommands grouped now ∧ d ∈ data) ↔ d ∈ read := by
  obtain ⟨grouped', hok, -, hcont⟩ := groupDueTasks_spec codec hdec [] List.nodup_nil
  obtain rfl : grouped = grouped' := Except.ok.inj (hg.symm.trans hok)
  constructor
  · rintro ⟨q, data, hmem, hd⟩
    have hgr : (q, data) ∈ grouped := by simpa [moveCommands] using hmem
    have hc : d ∈ contents grouped q :=
      List.mem_flatMap.mpr ⟨(q, data), List.mem_filter.mpr ⟨hgr, by simp⟩, hd⟩
    rw [hcont, contents_nil, List.nil_append] at hc
    exact (List.mem_filter.mp hc).1
  · intro hd
    have hc : d ∈ contents grouped (route codec d) := by
      rw [hcont, contents_nil, List.nil_append]
      exact List.mem_filter.mpr ⟨hd, by simp⟩
    obtain ⟨g, hgr, hdg⟩ := List.mem_flatMap.mp hc
    exact ⟨g.1, g.2, by simpa [moveCommands] using (List.mem_filter.mp hgr).1, hdg⟩

section transactions

/-- What a command of a transaction appends. -/
def RedisWrite.data : RedisWrite δ → List δ
  | .rpush _ data => data
  | .zremrangebyscore .. => []

/-- What a command of a transaction finds due in the delayed set, and removes. -/
def RedisWrite.due (R : Redis δ) : RedisWrite δ → List δ
  | .rpush .. => []
  | .zremrangebyscore lo hi => R.delayed.inRange lo hi

/-- What a transaction appends. -/
def pushed (ws : List (RedisWrite δ)) : List δ := ws.flatMap RedisWrite.data

/-- What a transaction removes. -/
def removed (R : Redis δ) (ws : List (RedisWrite δ)) : List δ := ws.flatMap (RedisWrite.due R)

lemma mem_pushed {ws : List (RedisWrite δ)} {d : δ} :
    d ∈ pushed ws ↔ ∃ q data, RedisWrite.rpush q data ∈ ws ∧ d ∈ data := by
  rw [pushed, List.mem_flatMap]
  constructor
  · rintro ⟨w, hw, hd⟩
    cases w with
    | rpush q data => exact ⟨q, data, hw, hd⟩
    | zremrangebyscore lo hi => cases hd
  · rintro ⟨q, data, hw, hd⟩
    exact ⟨_, hw, hd⟩

lemma mem_removed {R : Redis δ} {ws : List (RedisWrite δ)} {d : δ} :
    d ∈ removed R ws ↔
      ∃ lo hi, RedisWrite.zremrangebyscore lo hi ∈ ws ∧ d ∈ R.delayed.inRange lo hi := by
  rw [removed, List.mem_flatMap]
  constructor
  · rintro ⟨w, hw, hd⟩
    cases w with
    | rpush q data => cases hd
    | zremrangebyscore lo hi => exact ⟨lo, hi, hw, hd⟩
  · rintro ⟨lo, hi, hw, hd⟩
    exact ⟨_, hw, hd⟩

/-- The transaction that an action runs, if it runs one. -/
def transaction (p : Pool (Cmd δ) Reply String (Store δ)) (act : Act Answer) :
    List (RedisWrite δ) :=
  match p.call? act with
  | some (.multi ws) => ws
  | _ => []

/-- A condition on transactions that holds where there is none. -/
lemma forall_transaction {p : Pool (Cmd δ) Reply String (Store δ)} {act : Act Answer}
    {P : List (RedisWrite δ) → Prop} (hnone : P []) :
    (∀ ws, p.call? act = some (.multi ws) → P ws) ↔ P (transaction p act) := by
  unfold transaction
  constructor
  · intro h
    split
    · next ws hws => exact h ws hws
    · exact hnone
  · intro h ws hws
    rwa [hws] at h

end transactions

variable [DecidableEq δ]

/-- From `before` to `after` tasks only moved: an entry that left the delayed set was
appended once to the list of its priority, and nothing else was added anywhere. -/
structure Conserves (before after : Redis δ) : Prop where
  appended : ∀ q d, (after.lists q).count d = (before.lists q).count d +
    if d ∈ before.delayed.members ∧ d ∉ after.delayed.members ∧ route codec d = q then 1 else 0
  prefixes : ∀ q, before.lists q <+: after.lists q
  delayed : after.delayed.entries ⊆ before.delayed.entries
  dlq : after.dlq = before.dlq

variable {codec}

lemma Conserves.refl (R : Redis δ) : Conserves codec R R where
  appended q d := by
    rw [if_neg (fun h => h.2.1 h.1), Nat.add_zero]
  prefixes q := List.prefix_refl _
  delayed := List.Subset.refl _
  dlq := rfl

lemma Conserves.members_subset {before after : Redis δ} (h : Conserves codec before after) :
    after.delayed.members ⊆ before.delayed.members :=
  List.map_subset _ h.delayed

lemma count_filter_route {read : List δ} (hread : read.Nodup) (q : PriorityQueue) (d : δ) :
    (read.filter (fun d => route codec d = q)).count d =
      if d ∈ read ∧ route codec d = q then 1 else 0 := by
  rw [(hread.filter _).count]
  simp [List.mem_filter]

/-- A transaction conserves what was conserved before exactly when the entries the mover
read are the entries that are due now. -/
theorem conserves_move_iff {R₀ R : Redis δ} (h : Conserves codec R₀ R) {read : List δ}
    (hread : read.Nodup) (hsub : read ⊆ R₀.delayed.members)
    (hdec : ∀ d ∈ read, (codec.validate d).isSome) {grouped : List (PriorityQueue × List δ)}
    (hg : groupDueTasks codec read [] = .ok grouped) (now : ℚ) :
    Conserves codec R₀ (R.multi (moveCommands grouped now)) ↔
      ∀ d, d ∈ read ↔ d ∈ R.delayed.inRange 0 now := by
  have hlists : ∀ q, contents grouped q = read.filter (fun d => route codec d = q) := by
    obtain ⟨grouped', hok, -, hcont⟩ := groupDueTasks_spec codec hdec [] List.nodup_nil
    rw [hg] at hok
    intro q
    rw [Except.ok.inj hok, hcont q, contents_nil, List.nil_append]
  have hmem : ∀ d, d ∈ R.delayed.inRange 0 now → d ∈ R.delayed.members :=
    fun d => (R.delayed.inRange_sublist 0 now).mem
  rw [multi_moveCommands]
  constructor
  · intro h' d
    have hcount := h'.appended (route codec d) d
    simp only [hlists, List.count_append, h.appended, count_filter_route hread,
      SortedSet.mem_members_zremrangebyscore] at hcount
    constructor
    · intro hd
      have h₀ := hsub hd
      by_cases hm : d ∈ R.delayed.members
      · by_contra hr
        simp [hd, hm, hr, h₀] at hcount
      · simp [hd, hm, h₀] at hcount
    · intro hr
      have hm := hmem d hr
      have h₀ := h.members_subset hm
      by_contra hd
      simp [hd, hm, hr, h₀] at hcount
  · intro hiff
    refine ⟨fun q d => ?_, fun q => ?_, fun e he => ?_, h.dlq⟩
    · simp only [hlists, List.count_append, h.appended, count_filter_route hread,
        SortedSet.mem_members_zremrangebyscore, hiff d]
      by_cases hr : d ∈ R.delayed.inRange 0 now
      · have hm := hmem d hr
        have h₀ := h.members_subset hm
        simp [hr, hm, h₀]
      · simp [hr]
    · exact (h.prefixes q).trans (List.prefix_append _ _)
    · exact h.delayed (SortedSet.mem_entries_zremrangebyscore.mp he).1

section single

/-- A run of the mover leaves tasks conserved and entries that are not due in place. -/
def MoverCorrect (codec : Codec δ) (now : ℚ) (before after : Redis δ) : Prop :=
  Conserves codec before after ∧
    ∀ e ∈ before.delayed.entries, now < e.2 → e ∈ after.delayed.entries

/-- The whole call of a mover that runs alone. -/
lemma exec_processDelayedTasks (codec : Codec δ) (now : ℚ) (s : Store δ)
    {grouped : List (PriorityQueue × List δ)}
    (hok : groupDueTasks codec (s.redis.delayed.zrangebyscore 0 now 0 50) [] = .ok grouped) :
    (processDelayedTasks codec).exec (Store.effect codec) [.clock now, .done, .done] s =
      if s.redis.delayed.zrangebyscore 0 now 0 50 = [] then some (.ok (), [.done], s)
      else some (.ok (), [], { s with redis := s.redis.multi (moveCommands grouped now) }) := by
  by_cases h : s.redis.delayed.zrangebyscore 0 now 0 50 = []
  · simp [processDelayedTasks, Store.effect, h]
  · simp [processDelayedTasks, Store.effect, h, hok]

omit [DecidableEq δ] in
/-- A page holds the whole range exactly when the range is not longer than the page. -/
lemma mem_zrangebyscore_iff_length {Z : SortedSet δ ℚ} {lo hi : ℚ} {num : Nat} :
    (∀ d, d ∈ Z.zrangebyscore lo hi 0 num ↔ d ∈ Z.inRange lo hi) ↔
      (Z.inRange lo hi).length ≤ num := by
  constructor
  · intro h
    have hsub : Z.inRange lo hi ⊆ Z.zrangebyscore lo hi 0 num := fun d hd => (h d).mpr hd
    have hle := ((Z.nodup_inRange lo hi).subperm hsub).length_le
    have htake : (Z.zrangebyscore lo hi 0 num).length ≤ num := List.length_take_le _ _
    omega
  · intro h d
    rw [SortedSet.zrangebyscore_eq_inRange h]

/-- One run of a mover on decodable entries. -/
lemma exec_mover (codec : Codec δ) (now : ℚ) (s : Store δ)
    (hdec : ∀ d ∈ s.redis.delayed.members, (codec.validate d).isSome) :
    ∃ rest R', (processDelayedTasks codec).exec (Store.effect codec)
        [.clock now, .done, .done] s = some (.ok (), rest, { s with redis := R' }) ∧
      (MoverCorrect codec now s.redis R' ↔ (s.redis.delayed.inRange 0 now).length ≤ 50) := by
  have hsub : s.redis.delayed.zrangebyscore 0 now 0 50 ⊆ s.redis.delayed.members :=
    ((s.redis.delayed.zrangebyscore_sublist 0 now 0 50).trans
      (s.redis.delayed.inRange_sublist 0 now)).subset
  have hread : ∀ d ∈ s.redis.delayed.zrangebyscore 0 now 0 50, (codec.validate d).isSome :=
    fun d hd => hdec d (hsub hd)
  obtain ⟨grouped, hok, -, -⟩ := groupDueTasks_spec codec hread [] List.nodup_nil
  have hexec := exec_processDelayedTasks codec now s hok
  by_cases h : s.redis.delayed.zrangebyscore 0 now 0 50 = []
  · rw [if_pos h] at hexec
    refine ⟨_, s.redis, hexec, iff_of_true ⟨Conserves.refl _, fun e he _ => he⟩ ?_⟩
    have hnil : s.redis.delayed.inRange 0 now = [] := by
      simpa [SortedSet.zrangebyscore] using h
    rw [hnil]
    exact Nat.zero_le 50
  · rw [if_neg h] at hexec
    refine ⟨_, _, hexec, ?_⟩
    have hiff := conserves_move_iff (Conserves.refl s.redis)
      (s.redis.delayed.nodup_zrangebyscore 0 now 0 50) hsub hread hok now
    rw [← mem_zrangebyscore_iff_length, ← hiff]
    refine ⟨fun hm => hm.1, fun hc => ⟨hc, fun e he hlt => ?_⟩⟩
    rw [multi_moveCommands]
    exact SortedSet.mem_entries_zremrangebyscore.mpr ⟨he, fun hr => not_lt.mpr hr.2 hlt⟩

/-- A mover that runs alone works correctly exactly on at most 50 due entries. -/
theorem processDelayedTasks_correct_iff (codec : Codec δ) (now : ℚ) (s : Store δ)
    (hdec : ∀ d ∈ s.redis.delayed.members, (codec.validate d).isSome) :
    ∃ rest s', (processDelayedTasks codec).exec (Store.effect codec)
        [.clock now, .done, .done] s = some (.ok (), rest, s') ∧
      ((MoverCorrect codec now s.redis s'.redis ∧ s' = { s with redis := s'.redis }) ↔
        (s.redis.delayed.inRange 0 now).length ≤ 50) := by
  obtain ⟨rest, R', hexec, hiff⟩ := exec_mover codec now s hdec
  refine ⟨rest, _, hexec, ?_⟩
  rw [← hiff]
  exact and_iff_left rfl

end single

section backlog

/-- Stored values that are the payloads themselves. -/
def Codec.payloads : Codec QueuePayload where
  dump := id
  validate := some
  validate_dump _ := rfl
  before p q := p.taskId < q.taskId

def retryPayload (i : Nat) : QueuePayload where
  taskId := i
  scanId := 0
  method := "GET"
  url := "http://target.example/"
  attempt := 1

/-- One retry for each second from 0 to n - 1. -/
def backlog (n : Nat) : SortedSet QueuePayload ℚ where
  entries := (List.range n).map fun i => (retryPayload i, (i : ℚ))
  nodup := by
    rw [List.map_map]
    refine List.nodup_range.map fun i j h => ?_
    exact congrArg QueuePayload.taskId h
  sorted := by
    rw [List.pairwise_map]
    exact List.pairwise_lt_range.imp fun h => Nat.cast_le.mpr h.le

lemma inRange_backlog (n : Nat) :
    (backlog n).inRange 0 n = (List.range n).map retryPayload := by
  have hall : (backlog n).entries.filter (fun e => 0 ≤ e.2 ∧ e.2 ≤ (n : ℚ)) =
      (backlog n).entries := by
    refine List.filter_eq_self.mpr fun e he => ?_
    obtain ⟨i, hi, rfl⟩ := List.mem_map.mp he
    have hin : i ≤ n := (List.mem_range.mp hi).le
    simp only [decide_eq_true_eq]
    exact ⟨Nat.cast_nonneg i, Nat.cast_le.mpr hin⟩
  rw [SortedSet.inRange, hall, backlog, List.map_map]
  rfl

/-- A backlog that fits on the page is moved as it should be. -/
theorem processDelayedTasks_correct_iff_backlog :
    ((backlog 2).inRange 0 2).length ≤ 50 ∧
      ∃ rest s', (processDelayedTasks Codec.payloads).exec (Store.effect Codec.payloads)
          [.clock 2, .done, .done] { redis := { delayed := backlog 2 } } =
            some (.ok (), rest, s') ∧
        MoverCorrect Codec.payloads 2 { delayed := backlog 2 } s'.redis ∧
        s' = { ({ redis := { delayed := backlog 2 } } : Store QueuePayload) with
          redis := s'.redis } := by
  have hfits : ((backlog 2).inRange 0 2).length ≤ 50 := by decide +kernel
  obtain ⟨rest, s', hexec, hiff⟩ := processDelayedTasks_correct_iff Codec.payloads 2
    { redis := { delayed := backlog 2 } } (fun _ _ => rfl)
  exact ⟨hfits, rest, s', hexec, hiff.mpr hfits⟩

/-- The mover loses a retry of a backlog of 51. -/
theorem processDelayedTasks_loses_retry :
    ∃ rest s', (processDelayedTasks Codec.payloads).exec (Store.effect Codec.payloads)
        [.clock 51, .done, .done] { redis := { delayed := backlog 51 } } =
          some (.ok (), rest, s') ∧
      ¬MoverCorrect Codec.payloads 51 { delayed := backlog 51 } s'.redis := by
  obtain ⟨rest, R', hexec, hiff⟩ := exec_mover Codec.payloads 51
    { redis := { delayed := backlog 51 } } (fun _ _ => rfl)
  refine ⟨rest, _, hexec, fun h => ?_⟩
  have hlen : ((backlog 51).inRange 0 51).length = 51 := by
    have h51 := inRange_backlog 51
    rw [Nat.cast_ofNat] at h51
    rw [h51, List.length_map, List.length_range]
  have hle : ((backlog 51).inRange 0 51).length ≤ 50 := hiff.mp h
  omega

end backlog

end SecurityScanner
