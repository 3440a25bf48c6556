import SecurityScanner.Api.PasswordHashes
import SecurityScanner.Api.TokenProtocol
import SecurityScanner.Lib.RunLogic

/-!
# Accounts along a history

What the requests of a history do to the accounts: `register` adds one or nothing, and no other
request touches them. So the accounts are those of the answered registrations, in their order, and
every pair of tokens belongs to one of them.
-/

namespace SecurityScanner.Auth

open Storage Interleaving

variable {τ : Type}

section requests

variable {jwt : Jwt τ} {settings : Settings} {passwords : Passwords} {E : Env}

lemma users_tokenHandle (c : Cmd τ) (w : World τ) :
    (E.tokenHandle c w).2.store.users = w.store.users := by
  cases c with
  | addRevoked row =>
    unfold Env.tokenHandle Env.handle AccountStore.effect Env.answer Store.effect
    dsimp only
    cases w.store.tokens.revoked.insert? row <;> rfl
  | time | uuid | getRevoked | getUser | send => rfl

/-- Calls about tokens leave the accounts alone. -/
lemma gives_users {α : Type} (users : Table Account UserId fun a => a.id) (p : Handler τ α) :
    p.Gives E.tokenHandle (fun w => w.store.users = users) fun _ => True :=
  Prog.gives_of_keeps (fun c w hw => (users_tokenHandle c w).trans hw) p

/-- The user of an active account. -/
def ForActive (users : List Account) (user : User) : Prop :=
  ∃ account ∈ users, account.isActive = true ∧ account.toUser = user

/-- The lookup of a user finds the one of an account. -/
lemma gives_getUser (users : Table Account UserId fun a => a.id) (id : UserId) :
    (await (.getUser id) : Handler τ (Option User)).Gives E.tokenHandle
      (fun w => w.store.users = users)
      fun r => ∀ user, r = some user → ∃ account ∈ users.rows, account.toUser = user := by
  refine Prog.gives_perform ?_
  rintro w rfl
  refine ⟨rfl, fun r hr user huser => ?_⟩
  rw [tokenHandle_getUser, find?_tokens] at hr
  obtain rfl := Except.ok.inj hr
  obtain ⟨account, hfind, hto⟩ := Option.map_eq_some_iff.mp huser
  exact ⟨account, (Table.find?_eq_some_iff.mp hfind).1, hto⟩

/-- `refresh` answers for an active account. -/
lemma forActive_refresh {t : τ} {w : World τ} {pair : TokenResponse τ}
    (h : ((refresh jwt settings t).run E.tokenHandle w).1 = .ok pair) :
    ForActive w.store.users.rows pair.user := by
  have hgives : (refresh jwt settings t).Gives E.tokenHandle
      (fun w' => w'.store.users = w.store.users)
      fun pair => ForActive w.store.users.rows pair.user := by
    refine (gives_users _ _).bind fun payload _ => ?_
    split
    · exact Prog.gives_throw
    · refine (gives_users _ _).bind fun isRevoked _ => ?_
      split
      · exact Prog.gives_throw
      · split
        · exact Prog.gives_throw
        · refine (gives_getUser _ _).bind fun found hfound => ?_
          split
          · exact Prog.gives_throw
          · next user =>
            obtain ⟨account, hmem, rfl⟩ := hfound user rfl
            split
            · next hactive =>
              refine (gives_users _ _).bind fun _ _ => (gives_users _ _).bind fun access _ =>
                (gives_users _ _).bind fun refreshed _ => Prog.gives_pure ?_
              exact ⟨account, hmem, hactive, rfl⟩
            · exact Prog.gives_throw
  exact (hgives w rfl).2 pair h

end requests

section steps

variable (D : Deployment τ)

/-- The account that an answered `register` has added. -/
def Deployment.account (ev : Event τ) : Option Account :=
  match ev.request, ev.answer with
  | .register req, .ok (some pair) => some
      { pair.user with
        hashedPassword := D.passwords.hash req.password (D.env.salt (ev.start + 2)) }
  | _, _ => none

variable {D}

/-- `register` adds the account that it answers for, and otherwise changes no account. -/
lemma serve_register (req : RegisterRequest) (w : World τ) :
    (∃ pair account, (D.event (.register req) w).Grants pair ∧ pair.user = account.toUser ∧
        account = newAccount D.passwords D.env w.calls w.store.users.rows.head? req ∧
        (∀ a ∈ w.store.users.rows, a.email ≠ req.email) ∧
        (D.serve (.register req) w).2.store.users.rows = w.store.users.rows ++ [account]) ∨
      (∀ pair, ¬(D.event (.register req) w).Grants pair) ∧
        (D.serve (.register req) w).2.store.users = w.store.users := by
  have hserve : D.serve (.register req) w =
      (((register D.jwt D.settings D.passwords req).run D.env.handle w).1.map some,
        ((register D.jwt D.settings D.passwords req).run D.env.handle w).2) := by
    unfold Deployment.serve Deployment.route
    dsimp only
    rw [Prog.run_map]
  unfold Event.Grants Deployment.event
  dsimp only
  rw [hserve]
  cases hlookup : w.store.users.rows.find? fun a => a.email = req.email with
  | some account =>
    right
    unfold register
    rw [Prog.run_bind, ask, Prog.run_perform, handle_userByEmail, hlookup]
    exact ⟨fun pair h => (by cases h), rfl⟩
  | none =>
    have hnew : ∀ a ∈ w.store.users.rows, a.email ≠ req.email := by
      intro a ha
      simpa using List.find?_eq_none.mp hlookup a ha
    rw [run_register hlookup, Prog.run_bind, ask, Prog.run_perform, handle_addUser]
    have hskip : (w.skip 5).store = w.store := rfl
    rw [hskip]
    unfold AccountStore.addUser
    rw [if_neg (by
      rintro hmem
      obtain ⟨a, ha, hemail⟩ := List.mem_map.mp hmem
      exact hnew a ha hemail)]
    cases hinsert : w.store.users.insert?
        (newAccount D.passwords D.env w.calls w.store.users.rows.head? req) with
    | none => exact Or.inr ⟨fun pair h => (by cases h), rfl⟩
    | some users => exact Or.inl ⟨_, _, rfl, rfl, rfl, hnew, Table.rows_insert? hinsert⟩

/-- `login` answers for the account with the email, if the password is right and it is active. -/
lemma serve_login (req : LoginRequest) (w : World τ) :
    (D.serve (.login req) w).2.store.users = w.store.users ∧
      ∀ user, (∃ pair, (D.event (.login req) w).Grants pair ∧ pair.user = user) ↔
        ∃ account, (w.store.users.rows.find? fun a =>
            a.email = normalizeEmail D.interpreter req.email) = some account ∧
          D.passwords.verify req.password account.hashedPassword = true ∧
          account.isActive = true ∧ account.toUser = user := by
  have hserve : D.serve (.login req) w =
      (((login D.jwt D.settings D.passwords D.interpreter req).run D.env.handle w).1.map some,
        ((login D.jwt D.settings D.passwords D.interpreter req).run D.env.handle w).2) := by
    unfold Deployment.serve Deployment.route
    dsimp only
    rw [Prog.run_map]
  unfold Event.Grants Deployment.event
  dsimp only
  rw [hserve]
  unfold login
  rw [Prog.run_bind, ask, Prog.run_perform, handle_userByEmail]
  dsimp only
  cases w.store.users.rows.find? fun a => a.email = normalizeEmail D.interpreter req.email with
  | none => exact ⟨rfl, fun user => by simp [Except.map]⟩
  | some account =>
    dsimp only
    cases hverify : D.passwords.verify req.password account.hashedPassword with
    | false =>
      rw [if_neg Bool.false_ne_true]
      refine ⟨rfl, fun user => ?_⟩
      simp [Except.map, hverify]
    | true =>
      rw [if_pos rfl]
      cases hactive : account.isActive with
      | false =>
        rw [if_neg Bool.false_ne_true]
        refine ⟨rfl, fun user => ?_⟩
        simp [Except.map, hactive]
      | true =>
        rw [if_pos rfl, run_tokenResponse]
        refine ⟨rfl, fun user => ?_⟩
        simp [Except.map, hverify, hactive]

end steps

section histories

variable (D : Deployment τ)

/-- What holds of the accounts after every history. -/
structure AccountInv (init : AccountStore τ) (w : World τ) (events : List (Event τ)) : Prop where
  rows : w.store.users.rows = init.users.rows ++ events.filterMap D.account
  /-- The first account of all has the role it asked for or is an admin, the others are users. -/
  registered : ∀ before ev after req pair, events = before ++ ev :: after →
    ev.request = .register req → ev.Grants pair →
      pair.user.email = req.email ∧ pair.user.isActive = true ∧
        pair.user.role = newRole (init.users.rows ++ before.filterMap D.account).head? req.role
  owner : ∀ ev ∈ events, ∀ pair, ev.Grants pair → ForActive w.store.users.rows pair.user
  emails : (init.users.rows.map fun a => a.email).Nodup →
    (w.store.users.rows.map fun a => a.email).Nodup

variable {D} {init : AccountStore τ} {w : World τ} {events : List (Event τ)}

lemma ForActive.mono {users users' : List Account} {user : User} (h : ForActive users user)
    (hsub : users ⊆ users') : ForActive users' user := by
  obtain ⟨account, hmem, hactive, hto⟩ := h
  exact ⟨account, hsub hmem, hactive, hto⟩

lemma account_register {ev : Event τ} {req : RegisterRequest} {pair : TokenResponse τ}
    (hreq : ev.request = .register req) (hgrants : ev.Grants pair) :
    D.account ev = some
      { pair.user with
        hashedPassword := D.passwords.hash req.password (D.env.salt (ev.start + 2)) } := by
  unfold Deployment.account
  rw [hreq, show ev.answer = .ok (some pair) from hgrants]

lemma account_eq_none {ev : Event τ}
    (h : ∀ req pair, ev.request = .register req → ¬ev.Grants pair) : D.account ev = none := by
  unfold Deployment.account
  split
  · next req pair hreq hanswer => exact absurd hanswer (h req pair hreq)
  · rfl

lemma account_eq_some {ev : Event τ} {account : Account} (h : D.account ev = some account) :
    ∃ req pair, ev.request = .register req ∧ ev.Grants pair ∧ pair.user = account.toUser ∧
      account.hashedPassword = D.passwords.hash req.password (D.env.salt (ev.start + 2)) := by
  unfold Deployment.account at h
  split at h
  · next req pair hreq hanswer =>
    obtain rfl := Option.some.inj h
    exact ⟨req, pair, hreq, hanswer, rfl, rfl⟩
  · cases h

/-- A history that is longer by one request is split at that request, or before. -/
lemma split_concat {α : Type} {xs before after : List α} {x y : α}
    (h : xs ++ [x] = before ++ y :: after) :
    (before = xs ∧ y = x ∧ after = []) ∨ ∃ after', xs = before ++ y :: after' := by
  rcases List.eq_nil_or_concat after with rfl | ⟨after', z, rfl⟩
  · obtain ⟨hxs, hx⟩ := List.append_inj' h rfl
    exact Or.inl ⟨hxs.symm, (List.cons.inj hx).1.symm, rfl⟩
  · rw [List.concat_eq_append, ← List.cons_append, ← List.append_assoc] at h
    exact Or.inr ⟨after', (List.append_inj' h rfl).1⟩

/-- A request that leaves the accounts alone and answers for one of them. -/
lemma AccountInv.answered (hinv : AccountInv D init w events) {ev : Event τ} {w' : World τ}
    (husers : w'.store.users = w.store.users)
    (hregister : ∀ req pair, ev.request = .register req → ¬ev.Grants pair)
    (howner : ∀ pair, ev.Grants pair → ForActive w.store.users.rows pair.user) :
    AccountInv D init w' (events ++ [ev]) where
  rows := by
    rw [husers, hinv.rows, List.filterMap_append, List.filterMap_cons_none
      (account_eq_none hregister), List.filterMap_nil, List.append_nil]
  registered := by
    intro before ev' after req pair hsplit hreq hgrants
    rcases split_concat hsplit with ⟨-, rfl, -⟩ | ⟨after', hevents⟩
    · exact absurd hgrants (hregister req pair hreq)
    · exact hinv.registered before ev' after' req pair hevents hreq hgrants
  owner := by
    intro ev' hev' pair hgrants
    rw [husers]
    rcases List.mem_append.mp hev' with hev' | hev'
    · exact hinv.owner ev' hev' pair hgrants
    · rw [List.mem_singleton.mp hev'] at hgrants
      exact howner pair hgrants
  emails h := husers ▸ hinv.emails h

lemma AccountInv.register (hinv : AccountInv D init w events) (req : RegisterRequest) :
    AccountInv D init (D.serve (.register req) w).2
      (events ++ [D.event (.register req) w]) := by
  rcases serve_register (D := D) req w with
    ⟨pair, account, hgrants, huser, haccount, hnew, hrows⟩ | ⟨hrefused, husers⟩
  · have hrow : D.account (D.event (.register req) w) = some account := by
      rw [account_register rfl hgrants, huser, haccount]
      rfl
    have hsub : w.store.users.rows ⊆ w.store.users.rows ++ [account] := List.subset_append_left _ _
    refine ⟨?_, ?_, ?_, ?_⟩
    · rw [hrows, hinv.rows, List.filterMap_append, List.filterMap_cons_some hrow,
        List.append_assoc]
      rfl
    · intro before ev after req' pair' hsplit hreq hgrants'
      rcases split_concat hsplit with ⟨rfl, rfl, -⟩ | ⟨after', hevents⟩
      · obtain rfl := AccountRequest.register.inj hreq
        obtain rfl := Option.some.inj (Except.ok.inj (hgrants.symm.trans hgrants'))
        rw [huser, haccount, ← hinv.rows]
        exact ⟨rfl, rfl, rfl⟩
      · exact hinv.registered before ev after' req' pair' hevents hreq hgrants'
    · intro ev hev pair' hgrants'
      rw [hrows]
      rcases List.mem_append.mp hev with hev | hev
      · exact (hinv.owner ev hev pair' hgrants').mono hsub
      · rw [List.mem_singleton.mp hev] at hgrants'
        obtain rfl := Option.some.inj (Except.ok.inj (hgrants.symm.trans hgrants'))
        refine ⟨account, List.mem_append_right _ (List.mem_singleton_self _), ?_, huser.symm⟩
        rw [haccount]
        rfl
    · intro hnodup
      rw [hrows, List.map_append, List.map_singleton]
      refine (hinv.emails hnodup).append (List.nodup_singleton _) ?_
      intro email hmem hemail
      obtain ⟨a, ha, rfl⟩ := List.mem_map.mp hmem
      refine hnew a ha ((List.mem_singleton.mp hemail).trans ?_)
      rw [haccount]
      rfl
  · exact hinv.answered husers (fun _ pair _ => hrefused pair)
      fun pair h => absurd h (hrefused pair)

/-- What the requests of a history do to the accounts. -/
theorem accountInv_history (h : History D init w events) : AccountInv D init w events := by
  induction h with
  | start =>
    refine ⟨(List.append_nil _).symm, ?_, fun ev hev => (by cases hev), id⟩
    intro before ev after req pair hsplit
    cases before <;> cases hsplit
  | @serve w events request _ _ ih =>
    cases request with
    | register req => exact ih.register req
    | login req =>
      obtain ⟨husers, hgrants⟩ := serve_login (D := D) req w
      refine ih.answered husers (fun _ _ h => by cases h) fun pair hpair => ?_
      obtain ⟨account, hfind, -, hactive, hto⟩ := (hgrants pair.user).mp ⟨pair, hpair, rfl⟩
      exact ⟨account, List.mem_of_find?_eq_some hfind, hactive, hto⟩
    | refresh t =>
      refine ih.answered ?_ (fun _ _ h => by cases h) fun pair hpair => ?_
      · rw [serve_refresh]
        exact (gives_users _ _ w rfl).1
      · unfold Event.Grants Deployment.event at hpair
        dsimp only at hpair
        rw [serve_refresh] at hpair
        cases hrun : ((refresh D.jwt D.settings t).run D.env.tokenHandle w).1 with
        | error e =>
          rw [hrun] at hpair
          cases hpair
        | ok pair' =>
          rw [hrun] at hpair
          obtain rfl := Option.some.inj (Except.ok.inj hpair)
          exact forActive_refresh hrun
    | logout t =>
      refine ih.answered ?_ (fun _ _ h => by cases h) fun pair hpair => ?_
      · rw [serve_logout]
        exact (gives_users _ _ w rfl).1
      · unfold Event.Grants Deployment.event at hpair
        dsimp only at hpair
        rw [serve_logout] at hpair
        generalize ((logout D.jwt t).run D.env.tokenHandle w).1 = r at hpair
        cases r <;> cases hpair
  | wait n _ ih => exact ⟨ih.rows, ih.registered, ih.owner, ih.emails⟩

end histories

section logins

variable {D : Deployment τ} {w : World τ} {events : List (Event τ)}

/-- From an empty database, `login` answers for exactly the accounts that were registered with the
email, whatever its case and the spaces around it, and with a password that PBKDF2 does not tell
from the given one. -/
theorem login_protocol {kdf : String → List UInt8 → Nat → List UInt8}
    {urandom : String → List UInt8} (hpasswords : D.passwords = Passwords.pbkdf2 kdf urandom)
    (h : History D {} w events) (req : LoginRequest) (user : User) :
    (∃ pair, (D.serve (.login req) w).1 = .ok (some pair) ∧ pair.user = user) ↔
      ∃ ev ∈ events, ∃ reg pair, ev.request = .register reg ∧ ev.Grants pair ∧ pair.user = user ∧
        reg.email = normalizeEmail D.interpreter req.email ∧
        kdf req.password (urandom (D.env.salt (ev.start + 2))) pbkdf2Rounds =
          kdf reg.password (urandom (D.env.salt (ev.start + 2))) pbkdf2Rounds := by
  have hinv := accountInv_history h
  have hrows : w.store.users.rows = events.filterMap D.account := hinv.rows
  have hverify : ∀ {account : Account} {n : Nat} {reg : RegisterRequest},
      account.hashedPassword = D.passwords.hash reg.password (D.env.salt n) →
      (D.passwords.verify req.password account.hashedPassword = true ↔
        kdf req.password (urandom (D.env.salt n)) pbkdf2Rounds =
          kdf reg.password (urandom (D.env.salt n)) pbkdf2Rounds) := by
    intro account n reg hhash
    rw [hhash, hpasswords]
    exact verifyPassword_hashPassword kdf reg.password req.password _
  refine ((serve_login (D := D) req w).2 user).trans ?_
  constructor
  · rintro ⟨account, hfind, hright, -, rfl⟩
    have hmem := List.mem_of_find?_eq_some hfind
    rw [hrows] at hmem
    obtain ⟨ev, hev, haccount⟩ := List.mem_filterMap.mp hmem
    obtain ⟨reg, pair, hreg, hgrants, huser, hhash⟩ := account_eq_some haccount
    obtain ⟨before, after, hsplit⟩ := List.append_of_mem hev
    obtain ⟨hemail, -, -⟩ := hinv.registered before ev after reg pair hsplit hreg hgrants
    have hfound : account.email = normalizeEmail D.interpreter req.email := by
      simpa using List.find?_some hfind
    refine ⟨ev, hev, reg, pair, hreg, hgrants, huser, ?_, (hverify hhash).mp hright⟩
    rw [← hemail, huser]
    exact hfound
  · rintro ⟨ev, hev, reg, pair, hreg, hgrants, rfl, hemail, hright⟩
    obtain ⟨before, after, hsplit⟩ := List.append_of_mem hev
    obtain ⟨hregistered, hactive, -⟩ :=
      hinv.registered before ev after reg pair hsplit hreg hgrants
    have hmem := List.mem_filterMap.mpr ⟨ev, hev, account_register (D := D) hreg hgrants⟩
    rw [← hrows] at hmem
    let account : Account :=
      { pair.user with
        hashedPassword := D.passwords.hash reg.password (D.env.salt (ev.start + 2)) }
    refine ⟨account, ?_, (hverify rfl).mpr hright, hactive, rfl⟩
    -- emails are unique, so the lookup by one finds the account itself
    let byEmail : Table Account String fun a => a.email :=
      ⟨w.store.users.rows, hinv.emails List.nodup_nil⟩
    exact (Table.find?_eq_some_iff (T := byEmail)).mpr ⟨hmem, hregistered.trans hemail⟩

/-- PBKDF2 without its rounds. -/
def saltedBytes (password : String) (salt : List UInt8) (_ : Nat) : List UInt8 :=
  password.toUTF8.toList ++ salt

def hashingDeployment : Deployment TokenPayload :=
  { secondsDeployment with
    passwords := Passwords.pbkdf2 saltedBytes fun salt => salt.toUTF8.toList }

def hashingEvent : Event TokenPayload := hashingDeployment.event firstRequest ⟨{}, 0⟩

def registeredUser : User where
  id := 3
  email := "user@target.example"
  fullName := none
  role := "admin"
  isActive := true
  createdAt := 4

/-- The first account logs in with another spelling of its email. -/
theorem login_protocol_registered :
    ∃ pair, (hashingDeployment.serve
        (.login { email := " User@Target.example", password := "correct horse" })
        (hashingDeployment.serve firstRequest ⟨{}, 0⟩).2).1 = .ok (some pair) ∧
      pair.user = registeredUser :=
  (login_protocol rfl (History.serve firstRequest History.start trivial)
    { email := " User@Target.example", password := "correct horse" } registeredUser).mpr
      ⟨hashingEvent, List.mem_singleton_self _, _, _, rfl, rfl, rfl, by decide +kernel, rfl⟩

end logins

end SecurityScanner.Auth
