import SecurityScanner.Api.Accounts
import SecurityScanner.Lib.ThreadPool

/-!
# The first account

`register` tests whether there are accounts and commits the new one calls later, without a lock.
A request keeps the outcome of its test, so that requests that all found the table empty all write
the role they were asked for. One of them does no harm, whatever the others do.
-/

namespace SecurityScanner.Auth

open Storage Interleaving

variable {τ : Type} (jwt : Jwt τ) (settings : Settings) (passwords : Passwords)

/-- A request to `/register`: the handler and its answer. -/
def registerRequest (req : RegisterRequest) : AccountHandler τ Unit := do
  let response ← register jwt settings passwords req
  onTokens (await (.send response))

/-- Any number of requests over one database. -/
def accountSystem (τ : Type) :
    System (AccountCmd τ) AccountReply ApiError (AccountStore τ) AccountAnswer where
  effect := AccountStore.effect
  fork _ _ := none

/-- The accounts with another role than `user`. -/
def AccountStore.privileged (s : AccountStore τ) : List Account :=
  s.users.rows.filter fun a => a.role ≠ "user"

section protocol

/-- A request before its test, after it found the table empty or not, and after its commit. Up to
the commit of a first account the request knows the role it was asked for. -/
inductive Registration where
  | testing (requested : Option String)
  | first (requested : Option String)
  | later
  | done
  deriving DecidableEq

/-- Before a first account is committed, the request may ask for another role than `user`. -/
def Registration.mayRise : Registration → Bool
  | .first requested => requested ≠ some "user"
  | _ => false

/-- The role that the request was asked for, as long as it matters. -/
def Registration.requested? : Registration → Option (Option String)
  | .testing requested | .first requested => some requested
  | _ => none

def registration (τ : Type) : Protocol (AccountCmd τ) AccountReply ApiError Registration where
  allowed
    | .testing _, .userByEmail _ | .testing _, .firstUser => True
    | .first _, .salt | .first _, .newId | .first _, .token .time => True
    | .first requested, .addUser account => account.role = newRole none requested
    | .later, .salt | .later, .newId | .later, .token .time => True
    | .later, .addUser account => account.role = "user"
    | .done, .token .time | .done, .token .uuid | .done, .token (.send _) => True
    | _, _ => False
  reply
    | _, .addUser _, _ => True
    | _, _, r => ∃ a, r = .ok a
  next
    | .testing requested, .userByEmail _, _, g => g = .testing requested ∨ g = .done
    | .testing requested, .firstUser, .ok none, g => g = .first requested
    | _, .firstUser, _, g => g = .later
    | _, .addUser _, _, g => g = .done
    | g, _, _, g' => g' = g
  child g _ := g
  looping _ := True
  looping_next _ _ _ _ _ _ _ := trivial

lemma follows_onTokens_createToken (sub : UserId) (role type : String) (delta : ℚ) :
    Follows (registration τ) .done (onTokens (createToken jwt sub role type delta))
      (fun r g => (∃ token, r = .ok token) ∧ g = .done) :=
  follows_embed.mpr (follows_createToken_of_keeps jwt ⟨trivial, fun _ h => h, fun _ => rfl⟩
    ⟨trivial, fun _ h => h, fun _ => rfl⟩ sub role type delta)

lemma follows_tokenResponse (message : String) (user : User) :
    Follows (registration τ) .done (tokenResponse jwt settings message user)
      (fun r g => (∃ response, r = .ok response) ∧ g = .done) := by
  refine follows_bind.mpr ((follows_onTokens_createToken jwt _ _ _ _).mono ?_)
  rintro r g ⟨⟨access, rfl⟩, rfl⟩
  refine follows_bind.mpr ((follows_onTokens_createToken jwt _ _ _ _).mono ?_)
  rintro r g ⟨⟨refresh, rfl⟩, rfl⟩
  exact ⟨⟨_, rfl⟩, rfl⟩

/-- What a request does between its test and its commit. -/
def Registration.Draws : AccountCmd τ → Prop
  | .salt | .newId | .token .time => True
  | _ => False

/-- A request that has tested the table for the role `role`. -/
def Registration.Tested (g : Registration) (role : String) : Prop :=
  (∃ requested, g = .first requested ∧ role = newRole none requested) ∨ g = .later ∧ role = "user"

lemma Registration.Tested.draw {g : Registration} {role : String} (h : g.Tested role)
    {c : AccountCmd τ} (hc : Registration.Draws c) : (registration τ).Keeps g c := by
  rcases h with ⟨requested, rfl, -⟩ | ⟨rfl, -⟩
  all_goals
    cases c with
    | salt => exact ⟨trivial, fun _ h => h, fun _ => rfl⟩
    | newId => exact ⟨trivial, fun _ h => h, fun _ => rfl⟩
    | token c =>
      cases c <;> first | exact hc.elim | exact ⟨trivial, fun _ h => h, fun _ => rfl⟩
    | userByEmail email => exact hc.elim
    | firstUser => exact hc.elim
    | addUser account => exact hc.elim

lemma Registration.Tested.commit {g : Registration} {account : Account}
    (h : g.Tested account.role) : (registration τ).allowed g (.addUser account) := by
  rcases h with ⟨requested, rfl, hrole⟩ | ⟨rfl, hrole⟩
  · exact hrole
  · exact hrole

lemma next_addUser (g : Registration) (account : Account)
    (r : Except ApiError (AccountReply (.addUser account : AccountCmd τ))) :
    (registration τ).next g (.addUser account) r .done := by
  cases g <;> rfl

/-- The outcome of the test is what the request goes on with. -/
lemma next_firstUser (requested : Option String) (first : Option Account) :
    ∃ g, (registration τ).next (.testing requested) .firstUser (.ok first) g ∧
      g.Tested (newRole first requested) := by
  cases first with
  | none => exact ⟨.first requested, rfl, Or.inl ⟨requested, rfl, rfl⟩⟩
  | some account => exact ⟨.later, rfl, Or.inr ⟨rfl, rfl⟩⟩

lemma follows_register (req : RegisterRequest) :
    Follows (registration τ) (.testing req.role) (register jwt settings passwords req)
      (fun _ g => g = .done) := by
  refine follows_bind.mpr (follows_perform.mpr ⟨trivial, ?_⟩)
  rintro - ⟨found, rfl⟩
  cases found with
  | some account => exact ⟨.done, Or.inr rfl, rfl⟩
  | none =>
    refine ⟨.testing req.role, Or.inl rfl, ?_⟩
    refine follows_bind.mpr (follows_perform.mpr ⟨trivial, ?_⟩)
    rintro - ⟨first, rfl⟩
    obtain ⟨g, hnext, htested⟩ := next_firstUser (τ := τ) req.role first
    have hsalt := htested.draw (τ := τ) (c := .salt) trivial
    have hid := htested.draw (τ := τ) (c := .newId) trivial
    have htime := htested.draw (τ := τ) (c := .token .time) trivial
    refine ⟨g, hnext, hsalt.bind fun salt => hid.bind fun id => ?_⟩
    have htime' : ((registration τ).comap AccountCmd.token).Keeps g .time :=
      ⟨htime.allowed, htime.reply, htime.next⟩
    refine follows_bind.mpr (follows_embed.mpr (Follows.mono htime'.perform ?_))
    rintro - g ⟨⟨createdAt, rfl⟩, rfl⟩
    refine follows_bind.mpr (follows_perform.mpr ⟨htested.commit, fun r _ => ?_⟩)
    refine ⟨.done, next_addUser g _ r, ?_⟩
    cases r with
    | ok u => exact (follows_tokenResponse jwt settings _ _).mono fun _ _ h => h.2
    | error e => rfl

lemma follows_registerRequest (req : RegisterRequest) :
    Follows (registration τ) (.testing req.role) (registerRequest jwt settings passwords req)
      (fun _ g => g = .done) := by
  refine follows_bind.mpr ((follows_register jwt settings passwords req).mono ?_)
  rintro (e | response) g rfl
  · rfl
  · exact follows_embed.mpr (follows_perform.mpr ⟨trivial, fun _ _ => ⟨.done, rfl, rfl⟩⟩)

end protocol

section runs

/-- Before the first account is committed these are the calls between a test and its commit. -/
def betweenTestAndCommit (t : Thread (AccountCmd τ) AccountReply ApiError) : Bool :=
  match t.body.head? with
  | some .salt | some .newId | some (.token .time) | some (.addUser _) => true
  | _ => false

/-- The requests between their test and their commit that ask for another role than `user`. -/
def rising (reqs : List RegisterRequest)
    (p : Pool (AccountCmd τ) AccountReply ApiError (AccountStore τ)) : Nat :=
  (reqs.zip p.threads).countP fun rt => rt.1.role ≠ some "user" && betweenTestAndCommit rt.2

/-- The commit of the first account does not meet two requests that may rise. -/
def OneRises (reqs : List RegisterRequest)
    (p : Pool (AccountCmd τ) AccountReply ApiError (AccountStore τ)) (act : Act AccountAnswer) :
    Prop :=
  match p.call? act with
  | some (.addUser _) => p.store.users.rows = [] → rising reqs p ≤ 1
  | _ => True

instance (reqs : List RegisterRequest)
    (p : Pool (AccountCmd τ) AccountReply ApiError (AccountStore τ)) (act : Act AccountAnswer) :
    Decidable (OneRises reqs p act) := by
  unfold OneRises
  split <;> infer_instance

/-- Requests to `/register` over an empty table. -/
structure Registering (reqs : List RegisterRequest)
    (p : Pool (AccountCmd τ) AccountReply ApiError (AccountStore τ)) : Prop where
  threads : p.threads = reqs.map fun req => ⟨registerRequest jwt settings passwords req, none⟩
  empty : p.store.users.rows = []

/-- Until the first account is committed nothing is known; from then on, at most one account is
privileged or can still become so. -/
structure Bootstrapping (reqs : List RegisterRequest) (s : AccountStore τ)
    (gs : List Registration) : Prop where
  length : gs.length = reqs.length
  requested : ∀ (i : Nat) (g : Registration) (req : RegisterRequest), gs[i]? = some g →
    reqs[i]? = some req → ∀ requested, g.requested? = some requested → req.role = requested
  one : s.users.rows = [] ∨ gs.countP Registration.mayRise + s.privileged.length ≤ 1

/-- A thread that found the table empty is between its test and its commit. -/
lemma between_of_first {requested : Option String}
    {t : Thread (AccountCmd τ) AccountReply ApiError}
    (h : t.Typed (registration τ) .done (.first requested)) : betweenTestAndCommit t = true := by
  rcases t with ⟨body, loop⟩
  cases body with
  | pure u => cases h.1
  | raise e => cases h.1
  | call c k =>
    have hc : (registration τ).allowed (.first requested) c := h.1.1
    cases c with
    | token c => cases c <;> first | rfl | exact hc.elim
    | salt => rfl
    | newId => rfl
    | userByEmail email => exact hc.elim
    | firstUser => exact hc.elim
    | addUser account => rfl

/-- The requests that may rise are counted by what they are about to do. -/
lemma Bootstrapping.mayRise_le {reqs : List RegisterRequest} {gs : List Registration}
    {p : Pool (AccountCmd τ) AccountReply ApiError (AccountStore τ)}
    (h : Bootstrapping reqs p.store gs) (hty : Typed (registration τ) .done gs p.threads) :
    gs.countP Registration.mayRise ≤ rising reqs p := by
  have hgs : ((gs.zip (reqs.zip p.threads)).map Prod.fst) = gs := by
    rw [List.map_fst_zip]
    simp [← h.length, ← hty.1]
  have hthreads : ((gs.zip (reqs.zip p.threads)).map Prod.snd) = reqs.zip p.threads := by
    rw [List.map_snd_zip]
    simp [← h.length, ← hty.1]
  unfold rising
  rw [← hthreads]
  nth_rewrite 1 [← hgs]
  rw [List.countP_map, List.countP_map]
  refine List.countP_mono_left ?_
  rintro ⟨g, req, t⟩ hmem hrise
  obtain ⟨i, hi⟩ := List.mem_iff_getElem?.mp hmem
  obtain ⟨hg, hrt⟩ := List.getElem?_zip_eq_some.mp hi
  obtain ⟨hreq, ht⟩ := List.getElem?_zip_eq_some.mp hrt
  cases g with
  | first requested =>
    have hrole := h.requested i _ req hg hreq requested rfl
    have hbetween := between_of_first (hty.2 i _ t hg ht)
    simp only [Function.comp_apply, Registration.mayRise] at hrise
    simp [hrole, hbetween, of_decide_eq_true hrise]
  | testing requested => cases hrise
  | later => cases hrise
  | done => cases hrise

/-- Only a commit changes the accounts. -/
lemma users_of_effect {c : AccountCmd τ} {a : AccountAnswer} {s s' : AccountStore τ}
    {r : Except ApiError (AccountReply c)} (he : AccountStore.effect c a s = some (r, s'))
    (hc : ∀ account, c ≠ .addUser account) : s'.users = s.users := by
  cases c with
  | token c =>
    cases a <;> try cases he
    obtain ⟨_, -, heq⟩ := Option.map_eq_some_iff.mp he
    rw [← (Prod.mk.inj heq).2]
  | addUser account => exact absurd rfl (hc account)
  | _ =>
    cases a <;> cases he
    rfl

lemma registrationReply_of_effect {g : Registration} {c : AccountCmd τ}
    (hc : (registration τ).allowed g c) {a : AccountAnswer} {s s' : AccountStore τ}
    {r : Except ApiError (AccountReply c)}
    (he : AccountStore.effect c a s = some (r, s')) : (registration τ).reply g c r := by
  cases c with
  | token c =>
    cases a <;> try cases he
    obtain ⟨⟨r', t⟩, hb, heq⟩ := Option.map_eq_some_iff.mp he
    obtain ⟨rfl, -⟩ := Prod.mk.inj heq
    rename_i b
    cases c with
    | time =>
      cases b <;> cases hb
      exact ⟨_, rfl⟩
    | uuid =>
      cases b <;> cases hb
      exact ⟨_, rfl⟩
    | send response =>
      cases b <;> cases hb
      exact ⟨_, rfl⟩
    | _ => cases g <;> exact hc.elim
  | addUser account => cases g <;> trivial
  | _ =>
    cases a <;> cases he
    exact ⟨_, rfl⟩

/-- A commit adds the account or nothing. -/
lemma rows_addUser (s : AccountStore τ) (account : Account) :
    (s.addUser account).2 = s ∨ (s.addUser account).2.users.rows = s.users.rows ++ [account] := by
  unfold AccountStore.addUser
  split
  · exact Or.inl rfl
  · cases hinsert : s.users.insert? account with
    | none => exact Or.inl rfl
    | some users => exact Or.inr (Table.rows_insert? hinsert)

lemma countP_set_add {α : Type} (P : α → Bool) {xs : List α} {i : Nat} {x : α}
    (hx : xs[i]? = some x) (y : α) :
    (xs.set i y).countP P + (if P x then 1 else 0) = xs.countP P + if P y then 1 else 0 := by
  obtain ⟨hi, hxi⟩ := List.getElem?_eq_some_iff.mp hx
  have hold : xs.Perm (x :: xs.eraseIdx i) := hxi ▸ (List.getElem_cons_eraseIdx_perm hi).symm
  have hnew : (xs.set i y).Perm (y :: xs.eraseIdx i) := List.set_perm_cons_eraseIdx hi y
  rw [hold.countP_eq, hnew.countP_eq, List.countP_cons, List.countP_cons]
  omega

section step

variable {reqs : List RegisterRequest} {s s' : AccountStore τ} {gs : List Registration} {i : Nat}
  {g g' : Registration}

lemma Bootstrapping.requested_set (h : Bootstrapping reqs s gs) (hg : gs[i]? = some g)
    (hrequested : ∀ requested, g'.requested? = some requested → g.requested? = some requested)
    {j : Nat} {x : Registration} {req : RegisterRequest} (hx : (gs.set i g')[j]? = some x)
    (hreq : reqs[j]? = some req) {requested : Option String}
    (hx' : x.requested? = some requested) : req.role = requested := by
  rw [List.getElem?_set] at hx
  by_cases hij : i = j
  · subst hij
    obtain ⟨hi, -⟩ := List.getElem?_eq_some_iff.mp hg
    simp only [hi, ↓reduceIte, Option.some.injEq] at hx
    exact h.requested i g req hg hreq requested (hrequested requested (hx ▸ hx'))
  · simp only [hij, ↓reduceIte] at hx
    exact h.requested j x req hx hreq requested hx'

/-- A step that commits no account. -/
lemma Bootstrapping.move (h : Bootstrapping reqs s gs) (hg : gs[i]? = some g)
    (hrequested : ∀ requested, g'.requested? = some requested → g.requested? = some requested)
    (hrise : s.users.rows = [] ∨ (g'.mayRise → g.mayRise)) (hs : s'.users = s.users) :
    Bootstrapping reqs s' (gs.set i g') := by
  refine ⟨(List.length_set ..).trans h.length,
    fun j x req hx hreq requested => h.requested_set hg hrequested hx hreq, ?_⟩
  unfold AccountStore.privileged
  rw [hs]
  rcases hrise with hempty | hrise
  · exact Or.inl hempty
  · refine h.one.imp_right fun hone => ?_
    have hcount := countP_set_add Registration.mayRise hg g'
    have hle : (if g'.mayRise then 1 else 0) ≤ if g.mayRise then 1 else 0 := by
      split
      · rename_i hg'
        rw [if_pos (hrise hg')]
      · exact Nat.zero_le _
    unfold AccountStore.privileged at hone
    omega

lemma Bootstrapping.stay (h : Bootstrapping reqs s gs) (hg : gs[i]? = some g)
    (hs : s'.users = s.users) : Bootstrapping reqs s' (gs.set i g) :=
  h.move hg (fun _ hrequested => hrequested) (Or.inr id) hs

/-- Who commits another role than `user` is a request that may rise. -/
lemma mayRise_of_commit {account : Account} (hc : (registration τ).allowed g (.addUser account))
    (hrole : account.role ≠ "user") : g.mayRise = true := by
  cases g with
  | first requested =>
    refine decide_eq_true fun hrequested => hrole ?_
    rw [show account.role = newRole none requested from hc, hrequested]
    rfl
  | later => exact absurd hc hrole
  | testing requested => exact hc.elim
  | done => exact hc.elim

/-- A commit: the new account takes the place of the request that may rise. -/
lemma Bootstrapping.commit (h : Bootstrapping reqs s gs) (hg : gs[i]? = some g)
    {account : Account} (hc : (registration τ).allowed g (.addUser account))
    (hrise : s.users.rows = [] → gs.countP Registration.mayRise ≤ 1) :
    Bootstrapping reqs (s.addUser account).2 (gs.set i .done) := by
  have hrequested : ∀ requested, Registration.done.requested? = some requested →
      g.requested? = some requested := fun _ => nofun
  rcases rows_addUser s account with hrows | hrows
  · rw [hrows]
    exact h.move hg hrequested (Or.inr nofun) rfl
  · refine ⟨(List.length_set ..).trans h.length,
      fun j x req hx hreq requested => h.requested_set hg hrequested hx hreq, Or.inr ?_⟩
    have hbefore : gs.countP Registration.mayRise + s.privileged.length ≤ 1 := by
      rcases h.one with hempty | hone
      · rw [AccountStore.privileged, hempty]
        exact hrise hempty
      · exact hone
    have hcount := countP_set_add Registration.mayRise hg .done
    have hprivileged : (s.addUser account).2.privileged.length =
        s.privileged.length + if account.role ≠ "user" then 1 else 0 := by
      rw [AccountStore.privileged, hrows, List.filter_append, List.length_append]
      congr 1
      by_cases hrole : account.role = "user" <;> simp [hrole]
    have hrole : (if account.role ≠ "user" then 1 else 0) ≤ if g.mayRise then 1 else 0 := by
      split
      · rename_i hrole
        rw [if_pos (mayRise_of_commit hc hrole)]
      · exact Nat.zero_le _
    have hdone : (if Registration.done.mayRise then 1 else 0) = 0 := rfl
    omega

/-- The step of the invariant. -/
lemma Bootstrapping.effect (h : Bootstrapping reqs s gs) (hg : gs[i]? = some g)
    {c : AccountCmd τ} (hc : (registration τ).allowed g c)
    (hrise : ∀ account, c = .addUser account → s.users.rows = [] →
      gs.countP Registration.mayRise ≤ 1)
    {a : AccountAnswer} {r : Except ApiError (AccountReply c)}
    (he : AccountStore.effect c a s = some (r, s')) :
    (registration τ).reply g c r ∧
      ∀ g', (registration τ).next g c r g' → Bootstrapping reqs s' (gs.set i g') := by
  refine ⟨registrationReply_of_effect hc he, fun g' hn => ?_⟩
  cases c with
  | token c =>
    have hstay : g' = g := by cases g <;> cases c <;> exact hn
    exact hstay ▸ h.stay hg (users_of_effect he fun _ => nofun)
  | salt =>
    have hstay : g' = g := by cases g <;> exact hn
    exact hstay ▸ h.stay hg (users_of_effect he fun _ => nofun)
  | newId =>
    have hstay : g' = g := by cases g <;> exact hn
    exact hstay ▸ h.stay hg (users_of_effect he fun _ => nofun)
  | userByEmail email =>
    cases g <;> try exact hc.elim
    have husers := users_of_effect he fun _ => nofun
    rcases hn with rfl | rfl
    · exact h.stay hg husers
    · exact h.move hg (fun _ => nofun) (Or.inr nofun) husers
  | firstUser =>
    cases g <;> try exact hc.elim
    have husers := users_of_effect he fun _ => nofun
    obtain rfl : r = .ok s.users.rows.head? := by
      cases a <;> cases he
      rfl
    cases hrows : s.users.rows with
    | nil =>
      rw [hrows] at hn
      obtain rfl : g' = .first _ := hn
      exact h.move hg (fun _ hfirst => hfirst) (Or.inl hrows) husers
    | cons account rows =>
      rw [hrows] at hn
      obtain rfl : g' = .later := hn
      exact h.move hg (fun _ => nofun) (Or.inr nofun) husers
  | addUser account =>
    obtain rfl : s' = (s.addUser account).2 := by
      cases a <;> first | cases he | exact (congrArg Prod.snd (Option.some.inj he)).symm
    obtain rfl : g' = .done := by cases g <;> exact hn
    exact h.commit hg hc (hrise account rfl)

end step

variable {jwt settings passwords} {reqs : List RegisterRequest}
  {p : Pool (AccountCmd τ) AccountReply ApiError (AccountStore τ)}

lemma Registering.bootstrapping (h : Registering jwt settings passwords reqs p) :
    Typed (registration τ) .done (reqs.map fun req => .testing req.role) p.threads ∧
      Bootstrapping reqs p.store (reqs.map fun req => .testing req.role) := by
  refine ⟨⟨by rw [h.threads, List.length_map, List.length_map], ?_⟩,
    ⟨List.length_map .., ?_, Or.inl h.empty⟩⟩
  · intro i g t hg ht
    rw [h.threads, List.getElem?_map] at ht
    rw [List.getElem?_map] at hg
    obtain ⟨req, hreq, rfl⟩ := Option.map_eq_some_iff.mp ht
    obtain ⟨req', hreq', rfl⟩ := Option.map_eq_some_iff.mp hg
    obtain rfl := Option.some.inj (hreq.symm.trans hreq')
    exact ⟨follows_registerRequest jwt settings passwords req, fun l hl => nomatch hl⟩
  · intro i g req hg hreq requested hrequested
    rw [List.getElem?_map, hreq] at hg
    obtain rfl := Option.some.inj hg
    exact Option.some.inj hrequested

/-- If at most one request that may rise is between its test and its commit when the first account
is committed, then at most one account has another role than `user`. -/
theorem one_bootstrap_account
    (h : Reachable (accountSystem τ) (OneRises reqs) (Registering jwt settings passwords reqs) p) :
    p.store.privileged.length ≤ 1 := by
  have hrun : ∃ gs, Typed (registration τ) .done gs p.threads ∧ Bootstrapping reqs p.store gs :=
    h.ghost ?_ ?_ ?_
  · obtain ⟨gs, -, hJ⟩ := hrun
    rcases hJ.one with hempty | hone
    · rw [AccountStore.privileged, hempty]
      exact Nat.zero_le 1
    · omega
  · exact fun p hp => ⟨_, hp.bootstrapping⟩
  · intro g c r q _ _ hq
    cases hq
  · intro p gs i g c k l a r s' hty hJ hg ht hc hok he
    have hcall : p.call? (.run i a) = some c := Pool.call?_run ht
    have hrise : ∀ account, c = .addUser account → p.store.users.rows = [] →
        gs.countP Registration.mayRise ≤ 1 := by
      rintro account rfl hempty
      rw [OneRises, hcall] at hok
      exact (hJ.mayRise_le hty).trans (hok hempty)
    simpa [accountSystem] using hJ.effect hg hc hrise he

end runs

section schedules

/-- Tokens that are their claims and never expire. -/
def Jwt.lasting : Jwt TokenPayload := ⟨id, fun token _ => .ok token⟩

def appended : Passwords := ⟨fun password salt => password ++ salt, fun _ _ => true⟩

/-- Two persons register at the same time and ask for no role. -/
def twoRequests : List RegisterRequest :=
  [{ email := "one@target.example", password := "correct horse" },
    { email := "two@target.example", password := "battery staple" }]

def twoRegistering :
    Pool (AccountCmd TokenPayload) AccountReply ApiError (AccountStore TokenPayload) where
  store := {}
  threads := twoRequests.map fun req => ⟨registerRequest Jwt.lasting {} appended req, none⟩

lemma twoRegistering_registering :
    Registering Jwt.lasting {} appended twoRequests twoRegistering := ⟨rfl, rfl⟩

/-- The lookup of the email and the test. -/
def tests (i : Nat) : List (Act AccountAnswer) := [.run i .done, .run i .done]

/-- The steps from the test to the commit of the account `id`. -/
def commits (i : Nat) (id : UserId) : List (Act AccountAnswer) :=
  [.run i (.salt "a"), .run i (.id id), .run i (.token (.clock 60)), .run i .done]

/-- One person registers after the other. -/
theorem one_bootstrap_account_serial :
    ∃ p, Reachable (accountSystem TokenPayload) (OneRises twoRequests)
        (Registering Jwt.lasting {} appended twoRequests) p ∧
      p.store.users.rows.length = 2 ∧ p.store.privileged.length ≤ 1 := by
  have hrun : (twoRegistering.runActs (accountSystem TokenPayload) (OneRises twoRequests)
      (tests 0 ++ commits 0 3 ++ tests 1 ++ commits 1 4)).map
      (fun p => p.store.users.rows.length) = some 2 := by
    decide +kernel
  obtain ⟨p, hp, hlen⟩ := Reachable.of_shown twoRegistering_registering hrun
  exact ⟨p, hp, hlen, one_bootstrap_account hp⟩

/-- Both requests find the table empty, and both commit an administrator. -/
theorem two_bootstrap_accounts :
    ∃ p, Reachable (accountSystem TokenPayload) (fun _ _ => True)
        (Registering Jwt.lasting {} appended twoRequests) p ∧ p.store.privileged.length = 2 := by
  have hrun : (twoRegistering.runActs (accountSystem TokenPayload) (fun _ _ => True)
      (tests 0 ++ tests 1 ++ commits 0 3 ++ commits 1 4)).map
      (fun p => p.store.privileged.length) = some 2 := by
    decide +kernel
  exact Reachable.of_shown twoRegistering_registering hrun

end schedules

end SecurityScanner.Auth
