import SecurityScanner.Api.AccountHistory
import Mathlib.Data.List.Sort

/-!
# Access control

`require_role` of `executor/api/auth.py` and the route `list_users` of
`executor/api/auth_routes.py`, after any history of requests: an access token opens the routes of
the user it was issued to until it expires or is logged out, and `list_users` answers nobody but
the first account, if that one is an admin.
-/

namespace SecurityScanner.Auth

open Storage Interleaving

variable {τ : Type}

section routes

variable (jwt : Jwt τ)

/-- The check of `require_role`. -/
def requireRole (allowed : List String) (user : User) : Handler τ User :=
  if user.role ∈ allowed then pure user
  else throw (.http 403 ("Insufficient permissions. Requires one of: " ++
    ", ".intercalate allowed))

/-- `require_admin`, with the dependency that it has on `get_current_user`. -/
def requireAdmin (creds : Option τ) : Handler τ User := do
  let user ← getCurrentUser jwt creds
  requireRole ["admin"] user

variable (D : Deployment τ)

/-- `order_by(User.created_at.desc())`. -/
def newestFirst (accounts : List Account) : List User :=
  (accounts.map Account.toUser).mergeSort fun u v => v.createdAt ≤ u.createdAt

/-- `GET /users` with a token. -/
def Deployment.listUsers (token : τ) (w : World τ) : Except ApiError (List User) × World τ :=
  match (onTokens (requireAdmin D.jwt (some token))).run D.env.handle w with
  | (.ok _, w') => (.ok (newestFirst w'.store.users.rows), w'.skip 1)
  | (.error e, w') => (.error e, w')

end routes

section admission

variable {jwt : Jwt τ} {E : Env}

/-- What `get_current_user` asks of a token with the payload `p`. -/
structure Admits (jwt : Jwt τ) (E : Env) (t : τ) (w : World τ) (p : TokenPayload) (sub : UserId)
    (jti : String) (account : Account) : Prop where
  decode : jwt.decode t (E.clock w.calls) = .ok p
  complete : p.Complete sub jti
  type_eq : p.type = some "access"
  kept : w.store.revoked.find? jti = none
  found : w.store.users.find? sub = some account
  active : account.isActive = true

/-- `get_current_user` returns the user of a token that it admits, and no other. -/
lemma run_getCurrentUser {t : τ} {w : World τ} {user : User}
    (hcomplete : ∀ p, jwt.decode t (E.clock w.calls) = .ok p → ∃ sub jti, p.Complete sub jti) :
    ((getCurrentUser jwt (some t)).run E.tokenHandle w).1 = .ok user ↔
      ∃ p sub jti account, Admits jwt E t w p sub jti account ∧ account.toUser = user := by
  unfold getCurrentUser userFromToken
  dsimp only
  rw [Prog.run_bind]
  cases hdecode : jwt.decode t (E.clock w.calls) with
  | error e =>
    obtain ⟨detail, hrun⟩ := run_decodeToken_error hdecode
    rw [hrun]
    refine iff_of_false (fun h => by cases h) ?_
    rintro ⟨p, sub, jti, account, h, -⟩
    rw [h.decode] at hdecode
    cases hdecode
  | ok p =>
    obtain ⟨sub, jti, hp⟩ := hcomplete p hdecode
    have hadmits : ∀ {p' sub' jti' account}, Admits jwt E t w p' sub' jti' account →
        p' = p ∧ sub' = sub ∧ jti' = jti := by
      intro p' sub' jti' account h
      obtain rfl := Except.ok.inj (hdecode.symm.trans h.decode)
      exact ⟨rfl, Option.some.inj (h.complete.sub_eq.symm.trans hp.sub_eq),
        Option.some.inj (h.complete.jti_eq.symm.trans hp.jti_eq)⟩
    rw [run_decodeToken_ok hdecode]
    dsimp only
    by_cases htype : p.type = some "access"
    · rw [if_neg (not_not.mpr htype), Prog.run_bind, hp.jti_eq, run_isTokenRevoked hp.jti_ne]
      dsimp only
      have hskip : (w.skip 1).store = w.store := rfl
      rw [hskip]
      cases hfind : w.store.revoked.find? jti with
      | some row =>
        refine iff_of_false (fun h => by cases h) ?_
        rintro ⟨p', sub', jti', account, h, -⟩
        obtain ⟨-, -, rfl⟩ := hadmits h
        rw [h.kept] at hfind
        cases hfind
      | none =>
        rw [Option.isSome_none, if_neg Bool.false_ne_true, hp.sub_eq]
        dsimp only
        rw [Prog.run_bind, await, Prog.run_perform, tokenHandle_getUser, find?_tokens]
        dsimp only
        have hskip' : ((w.skip 1).skip 1).store = w.store := rfl
        rw [hskip']
        cases huser : w.store.users.find? sub with
        | none =>
          refine iff_of_false (fun h => by cases h) ?_
          rintro ⟨p', sub', jti', account, h, -⟩
          obtain ⟨-, rfl, -⟩ := hadmits h
          rw [h.found] at huser
          cases huser
        | some account =>
          dsimp only [Option.map_some]
          cases hactive : account.isActive with
          | false =>
            rw [if_neg Bool.false_ne_true]
            refine iff_of_false (fun h => by cases h) ?_
            rintro ⟨p', sub', jti', account', h, -⟩
            obtain ⟨-, rfl, -⟩ := hadmits h
            obtain rfl := Option.some.inj (huser.symm.trans h.found)
            rw [h.active] at hactive
            cases hactive
          | true =>
            rw [if_pos rfl]
            constructor
            · intro h
              exact ⟨p, sub, jti, account, ⟨hdecode, hp, htype, hfind, huser, hactive⟩,
                Except.ok.inj h⟩
            · rintro ⟨p', sub', jti', account', h, rfl⟩
              obtain ⟨-, rfl, -⟩ := hadmits h
              obtain rfl := Option.some.inj (huser.symm.trans h.found)
              rfl
    · rw [if_pos htype]
      refine iff_of_false (fun h => by cases h) ?_
      rintro ⟨p', sub', jti', account, h, -⟩
      obtain ⟨rfl, -, -⟩ := hadmits h
      exact htype h.type_eq

end admission

section protocol

variable (D : Deployment τ)

/-- The expiry of the access token that a request was answered with, from the time of the fourth
last of its calls. -/
def Deployment.accessExpiry (ev : Event τ) : ℚ :=
  (⌊D.env.clock (ev.finish - 4) + 60 * D.settings.accessTokenExpireMinutes⌋ : ℤ)

/-- The token is the access token of the pair that `ev` was answered with, it has not expired, and
`logout` did not get it before it expired. -/
structure Admitted (w : World τ) (events : List (Event τ)) (t : τ) (ev : Event τ)
    (pair : TokenResponse τ) : Prop where
  mem : ev ∈ events
  grants : ev.Grants pair
  token : pair.accessToken = t
  unexpired : D.env.clock w.calls < D.accessExpiry ev
  kept : ∀ ev' ∈ events, ev'.request = .logout t → D.accessExpiry ev ≤ D.env.clock ev'.start

variable {D} {init : AccountStore τ} {w : World τ} {events : List (Event τ)}
  (hjwt : D.jwt.Lawful) (horder : D.env.Orderly init)

include hjwt horder

/-- The requests for which `refresh` was answered had a refresh token. -/
lemma refreshed_history (h : History D init w events) : ∀ ev ∈ events, ∀ t, ev.request = .refresh t →
    ∀ pair, ev.Grants pair →
      ∃ p, D.jwt.decode t (D.env.clock ev.start) = .ok p ∧ p.type = some "refresh" := by
  induction h with
  | start => exact fun ev hev => by cases hev
  | @serve w events request hprefix hpresents ih =>
    intro ev hev t ht pair hgrants
    rcases List.mem_append.mp hev with hev | hev
    · exact ih ev hev t ht pair hgrants
    · obtain rfl := List.mem_singleton.mp hev
      obtain rfl : request = .refresh t := ht
      have hinv := inv_history hjwt horder hprefix
      have hread := Presentable.readable hjwt horder hinv hpresents
      obtain ⟨p, sub, jti, htakes⟩ := takes_of_grants hread hgrants
      exact ⟨p, htakes.decode, htakes.type_eq⟩
  | wait n _ ih => exact ih

/-- What `decode` makes of an access token from its second claim on. -/
lemma decode_access (hinv : Inv D init w events) {ev : Event τ} {pair : TokenResponse τ}
    (hev : ev ∈ events) (hgrants : ev.Grants pair) {k : Nat} (hk : ev.finish ≤ k + 4) :
    (D.accessExpiry ev ≤ D.env.clock k ∧
        D.jwt.decode pair.accessToken (D.env.clock k) = .error .expiredSignature) ∨
      (D.env.clock k < D.accessExpiry ev ∧ ∃ p, D.jwt.decode pair.accessToken (D.env.clock k) = .ok p ∧
        p.type = some "access" ∧ p.Complete pair.user.id (D.env.uuid (ev.finish - 3))) := by
  obtain ⟨n, user, hstart, hfinish, hat⟩ := hinv.pair ev hev pair hgrants
  have hfirst : ev.finish - 4 = n := by omega
  have hsecond : ev.finish - 3 = n + 1 := by omega
  have hexpiry : D.accessExpiry ev =
      (⌊D.env.clock n + 60 * D.settings.accessTokenExpireMinutes⌋ : ℚ) := by
    unfold Deployment.accessExpiry
    rw [hfirst]
  rw [hat.access, decode_claims hjwt horder (by omega), hexpiry, hsecond, hat.user_eq]
  by_cases hexpired : (⌊D.env.clock n + 60 * D.settings.accessTokenExpireMinutes⌋ : ℚ) ≤
      D.env.clock k
  · rw [if_pos hexpired]
    exact Or.inl ⟨hexpired, rfl⟩
  · rw [if_neg hexpired]
    exact Or.inr ⟨lt_of_not_ge hexpired, _, rfl, rfl, rfl, rfl, horder.uuid_ne _⟩

/-- The access token of the number `n` is revoked by `logout` alone, while it is valid. -/
lemma logout_of_revokes (h : History D init w events) {n : Nat} {t : τ}
    (hminted : Minted D events "access" n t) {ev : Event τ} (hev : ev ∈ events)
    (hrevokes : D.Revokes ev (D.env.uuid (n + 1))) :
    ev.request = .logout t ∧ n < ev.start ∧
      ∃ p, D.jwt.decode t (D.env.clock ev.start) = .ok p := by
  have hinv := inv_history hjwt horder h
  obtain ⟨t', p, hdecode, hjti, hrequest⟩ := hrevokes
  rcases hinv.presented ev hev t' (hrequest.symm.imp_left And.left) with
    ⟨type, n', hminted', hn'⟩ | hforged
  · obtain ⟨htype, sub, hp⟩ := hminted'.decode hjwt horder hn'.le hdecode
    have hnumber := horder.uuid (Option.some.inj (hp.jti_eq.symm.trans hjti))
    obtain ⟨rfl, rfl⟩ := hminted'.unique hinv hminted (by omega)
    refine ⟨?_, by omega, p, hdecode⟩
    rcases hrequest with hlogout | ⟨hrefresh, pair, hgrants⟩
    · exact hlogout
    · obtain ⟨q, hq, hqtype⟩ := refreshed_history hjwt horder h ev hev t' hrefresh pair hgrants
      obtain rfl := Except.ok.inj (hdecode.symm.trans hq)
      rw [htype] at hqtype
      exact absurd hqtype (by decide)
  · obtain ⟨e, he⟩ := hforged (D.env.clock ev.start)
    rw [he] at hdecode
    cases hdecode

/-- A token that `get_current_user` admits is an access token of the history that is still good. -/
lemma admitted_of_admits (h : History D init w events) {ev : Event τ} {pair : TokenResponse τ}
    (hev : ev ∈ events) (hgrants : ev.Grants pair) {p : TokenPayload} {sub : UserId} {jti : String}
    {account : Account} (hadmits : Admits D.jwt D.env pair.accessToken w p sub jti account) :
    Admitted D w events pair.accessToken ev pair ∧ pair.user = account.toUser := by
  have hinv := inv_history hjwt horder h
  have hpast : ev.finish ≤ w.calls + 4 := (hinv.past ev hev).trans (Nat.le_add_right _ 4)
  rcases decode_access hjwt horder hinv hev hgrants hpast with ⟨-, herror⟩ | ⟨hlt, q, hq, -, hc⟩
  · rw [hadmits.decode] at herror
    cases herror
  · obtain rfl := Except.ok.inj (hadmits.decode.symm.trans hq)
    obtain rfl := Option.some.inj (hadmits.complete.jti_eq.symm.trans hc.jti_eq)
    obtain rfl := Option.some.inj (hadmits.complete.sub_eq.symm.trans hc.sub_eq)
    have hkept : ∀ ev' ∈ events, ¬D.Revokes ev' (D.env.uuid (ev.finish - 3)) := by
      intro ev' hev' hrevokes
      have hsome := (hinv.revoked _).mpr (Or.inr ⟨ev', hev', hrevokes⟩)
      rw [hadmits.kept] at hsome
      cases hsome
    refine ⟨⟨hev, hgrants, rfl, hlt, fun ev' hev' hlogout => ?_⟩, ?_⟩
    · -- a token that is valid now has been presented after it was issued only
      obtain ⟨n, user, hstart, hfinish, hat⟩ := hinv.pair ev hev pair hgrants
      have hminted := Minted.access hev hgrants hstart hfinish hat
      rcases hinv.presented ev' hev' _ (Or.inr hlogout) with ⟨type, n', hminted', hn'⟩ | hforged
      · obtain ⟨-, sub', hp'⟩ := hminted'.decode hjwt horder (hminted'.past hinv).le hq
        have hnumber := horder.uuid (Option.some.inj (hc.jti_eq.symm.trans hp'.jti_eq))
        have hafter : ev.finish ≤ ev'.start + 4 := by omega
        rcases decode_access hjwt horder hinv hev hgrants hafter with ⟨hle, -⟩ | ⟨-, r, hr, -, hcr⟩
        · exact hle
        · exact absurd ⟨_, r, hr, hcr.jti_eq, Or.inl hlogout⟩ (hkept ev' hev')
      · obtain ⟨e, he⟩ := hforged (D.env.clock w.calls)
        rw [he] at hq
        cases hq
    · obtain ⟨account', hmem, -, hto⟩ := (accountInv_history h).owner ev hev pair hgrants
      have hid : account'.id = pair.user.id := congrArg User.id hto
      have hfound := hadmits.found
      rw [← hid, Table.find?_key_of_mem hmem] at hfound
      rw [← hto, Option.some.inj hfound]

/-- A token that is still good is admitted. -/
lemma admits_of_admitted (h : History D init w events) {t : τ} {ev : Event τ}
    {pair : TokenResponse τ} (hadmitted : Admitted D w events t ev pair) :
    ∃ p sub jti account, Admits D.jwt D.env t w p sub jti account ∧
      account.toUser = pair.user := by
  have hinv := inv_history hjwt horder h
  obtain ⟨hev, hgrants, rfl, hlt, hlogout⟩ := hadmitted
  have hpast : ev.finish ≤ w.calls + 4 := (hinv.past ev hev).trans (Nat.le_add_right _ 4)
  rcases decode_access hjwt horder hinv hev hgrants hpast with ⟨hle, -⟩ | ⟨-, p, hp, htype, hc⟩
  · exact absurd hle (not_le_of_gt hlt)
  · obtain ⟨account, hmem, hactive, hto⟩ := (accountInv_history h).owner ev hev pair hgrants
    have hid : account.id = pair.user.id := congrArg User.id hto
    refine ⟨p, _, _, account, ⟨hp, hc, htype, ?_, hid ▸ Table.find?_key_of_mem hmem, hactive⟩, hto⟩
    rw [Option.eq_none_iff_forall_ne_some]
    intro row hrow
    have hsome : (w.store.revoked.find? (D.env.uuid (ev.finish - 3))).isSome := by
      rw [hrow]
      rfl
    rw [hinv.revoked, horder.uuid_new] at hsome
    rcases hsome with hnone | ⟨ev', hev', hrevokes⟩
    · cases hnone
    · obtain ⟨n, user, hstart, hfinish, hat⟩ := hinv.pair ev hev pair hgrants
      have hminted := Minted.access hev hgrants hstart hfinish hat
      have hnumber : ev.finish - 3 = n + 1 := by omega
      rw [hnumber] at hrevokes
      obtain ⟨hrequest, hafter, q, hq⟩ := logout_of_revokes hjwt horder h hminted hev' hrevokes
      have hk : ev.finish ≤ ev'.start + 4 := by omega
      rcases decode_access hjwt horder hinv hev hgrants hk with ⟨-, herror⟩ | ⟨hunexpired, -⟩
      · rw [hq] at herror
        cases herror
      · exact absurd (hlogout ev' hev' hrequest) (not_le_of_gt hunexpired)

/-- `get_current_user` returns the user that an access token was issued to, while it is good. -/
lemma currentUser_iff (h : History D init w events) {t : τ} (ht : Presentable D events t)
    (user : User) : ((getCurrentUser D.jwt (some t)).run D.env.tokenHandle w).1 = .ok user ↔
      ∃ ev pair, Admitted D w events t ev pair ∧ pair.user = user := by
  have hinv := inv_history hjwt horder h
  rw [run_getCurrentUser (ht.readable hjwt horder hinv)]
  constructor
  · rintro ⟨p, sub, jti, account, hadmits, rfl⟩
    rcases ht with ⟨ev, hev, pair, hgrants, rfl⟩ | ht | hforged
    · obtain ⟨hadmitted, huser⟩ := admitted_of_admits hjwt horder h hev hgrants hadmits
      exact ⟨ev, pair, hadmitted, huser⟩
    · obtain ⟨n, hminted⟩ := ht.minted hinv
      obtain ⟨htype, -⟩ := hminted.decode hjwt horder (hminted.past hinv).le hadmits.decode
      rw [hadmits.type_eq] at htype
      exact absurd htype (by decide)
    · obtain ⟨e, he⟩ := hforged (D.env.clock w.calls)
      rw [hadmits.decode] at he
      cases he
  · rintro ⟨ev, pair, hadmitted, rfl⟩
    exact admits_of_admitted hjwt horder h hadmitted

end protocol

section results

/-- The user was registered before all others, and as an admin. -/
def FirstAdmin (events : List (Event τ)) (user : User) : Prop :=
  ∃ before ev after req pair, events = before ++ ev :: after ∧
    (∀ ev' ∈ before, ∀ req' pair', ev'.request = .register req' → ¬ev'.Grants pair') ∧
    ev.request = .register req ∧ ev.Grants pair ∧ pair.user = user ∧
    newRole none req.role = "admin"

variable {D : Deployment τ} {init : AccountStore τ} {w : World τ} {events : List (Event τ)}

/-- From an empty database, the first account alone can be an admin. -/
lemma role_eq_admin_iff (h : History D {} w events) {ev : Event τ} {pair : TokenResponse τ}
    (hev : ev ∈ events) (hgrants : ev.Grants pair) :
    pair.user.role = "admin" ↔ FirstAdmin events pair.user := by
  have hinv := accountInv_history h
  have hrows : w.store.users.rows = events.filterMap D.account := hinv.rows
  constructor
  · intro hadmin
    obtain ⟨account, hmem, -, hto⟩ := hinv.owner ev hev pair hgrants
    rw [hrows] at hmem
    obtain ⟨ev', hev', haccount⟩ := List.mem_filterMap.mp hmem
    obtain ⟨req, pair', hreq, hgrants', huser, -⟩ := account_eq_some haccount
    obtain ⟨before, after, hsplit⟩ := List.append_of_mem hev'
    obtain ⟨-, -, hrole⟩ := hinv.registered before ev' after req pair' hsplit hreq hgrants'
    rw [huser, hto, hadmin] at hrole
    refine ⟨before, ev', after, req, pair', hsplit, ?_, hreq, hgrants', huser.trans hto, ?_⟩
    · intro ev'' hev'' req' pair'' hreq' hgrants''
      have hmem' := List.mem_filterMap.mpr ⟨ev'', hev'', account_register (D := D) hreq' hgrants''⟩
      obtain ⟨first, hfirst⟩ : ∃ first, (before.filterMap D.account).head? = some first := by
        cases hnil : before.filterMap D.account with
        | nil =>
          rw [hnil] at hmem'
          cases hmem'
        | cons first rest => exact ⟨first, rfl⟩
      change "admin" = newRole (before.filterMap D.account).head? req.role at hrole
      rw [hfirst] at hrole
      exact absurd hrole (by simp [newRole])
    · change "admin" = newRole (before.filterMap D.account).head? req.role at hrole
      cases hfirst : (before.filterMap D.account).head? with
      | none =>
        rw [hfirst] at hrole
        exact hrole.symm
      | some first =>
        rw [hfirst] at hrole
        exact absurd hrole (by simp [newRole])
  · rintro ⟨before, ev', after, req, pair', hsplit, hbefore, hreq, hgrants', huser, hrole⟩
    obtain ⟨-, -, hrole'⟩ := hinv.registered before ev' after req pair' hsplit hreq hgrants'
    have hnone : before.filterMap D.account = [] :=
      List.filterMap_eq_nil_iff.mpr fun ev'' hev'' =>
        account_eq_none fun req' pair'' hreq' => hbefore ev'' hev'' req' pair'' hreq'
    rw [← huser, hrole']
    change newRole (before.filterMap D.account).head? req.role = "admin"
    rw [hnone]
    exact hrole

lemma run_requireAdmin {t : τ} {w : World τ} :
    ((D.listUsers t w).1 = .ok (newestFirst w.store.users.rows) ∨
        ∃ e, (D.listUsers t w).1 = .error e) ∧
      ((∃ users, (D.listUsers t w).1 = .ok users) ↔ ∃ user : User,
        ((getCurrentUser D.jwt (some t)).run D.env.tokenHandle w).1 = .ok user ∧
          user.role = "admin") := by
  have husers := (gives_users (E := D.env) w.store.users (getCurrentUser D.jwt (some t)) w rfl).1
  unfold Deployment.listUsers requireAdmin
  rw [run_onTokens, Prog.run_bind]
  cases hrun : (getCurrentUser D.jwt (some t)).run D.env.tokenHandle w with
  | mk r w' =>
    rw [hrun] at husers
    replace husers : w'.store.users = w.store.users := husers
    cases r with
    | error e => exact ⟨Or.inr ⟨e, rfl⟩, by simp⟩
    | ok user =>
      unfold requireRole
      by_cases hadmin : user.role = "admin"
      · simp [hadmin, husers]
      · simp [hadmin]

variable (hjwt : D.jwt.Lawful)

include hjwt

/-- After every history, `GET /me` answers a token that somebody can present exactly when it is an
access token of the history that is neither expired nor logged out, and shows the user that it was
issued to. -/
theorem access_protocol (horder : D.env.Orderly init) (h : History D init w events) {t : τ}
    (ht : Presentable D events t) (user : User) :
    (D.me t w).1 = .ok user ↔ ∃ ev pair, Admitted D w events t ev pair ∧ pair.user = user := by
  unfold Deployment.me
  rw [run_onTokens]
  exact currentUser_iff hjwt horder h ht user

/-- From an empty database, `GET /users` answers only a good access token of the account that was
registered first, if that one is an admin, and shows exactly the registered accounts. -/
theorem list_users_answers_first_admin (horder : D.env.Orderly ({} : AccountStore τ))
    (h : History D {} w events)
    {t : τ} (ht : Presentable D events t) (users : List User) :
    (D.listUsers t w).1 = .ok users ↔
      (∃ ev pair, Admitted D w events t ev pair ∧ FirstAdmin events pair.user) ∧
        users = newestFirst (events.filterMap D.account) := by
  obtain ⟨hshown, hanswers⟩ := run_requireAdmin (D := D) (t := t) (w := w)
  have hrows : w.store.users.rows = events.filterMap D.account := (accountInv_history h).rows
  have hadmin : (∃ users, (D.listUsers t w).1 = .ok users) ↔
      ∃ ev pair, Admitted D w events t ev pair ∧ FirstAdmin events pair.user := by
    rw [hanswers]
    constructor
    · rintro ⟨user, huser, hrole⟩
      obtain ⟨ev, pair, hadmitted, rfl⟩ := (currentUser_iff hjwt horder h ht user).mp huser
      exact ⟨ev, pair, hadmitted,
        (role_eq_admin_iff h hadmitted.mem hadmitted.grants).mp hrole⟩
    · rintro ⟨ev, pair, hadmitted, hfirst⟩
      exact ⟨pair.user, (currentUser_iff hjwt horder h ht _).mpr ⟨ev, pair, hadmitted, rfl⟩,
        (role_eq_admin_iff h hadmitted.mem hadmitted.grants).mpr hfirst⟩
  rw [← hadmin, ← hrows]
  constructor
  · intro husers
    refine ⟨⟨users, husers⟩, ?_⟩
    rcases hshown with hshown | ⟨e, he⟩
    · exact Except.ok.inj (husers.symm.trans hshown)
    · rw [he] at husers
      cases husers
  · rintro ⟨⟨users', husers'⟩, rfl⟩
    rcases hshown with hshown | ⟨e, he⟩
    · exact hshown
    · rw [he] at husers'
      cases husers'

end results

section witness

def firstAccess : TokenPayload :=
  Jwt.wholeSeconds.encode (secondsEnv.claims 6 3 "admin" "access" (60 * 30))

lemma firstAccess_issued : IssuedAccess [firstEvent] firstAccess :=
  ⟨firstEvent, List.mem_singleton_self _, _, rfl, rfl⟩

lemma firstAccess_admitted : ∃ pair,
    Admitted secondsDeployment firstWorld [firstEvent] firstAccess firstEvent pair ∧
      pair.user = registeredUser ∧ firstEvent.Grants pair := by
  refine ⟨_, ⟨List.mem_singleton_self _, rfl, rfl, by decide +kernel, ?_⟩, rfl, rfl⟩
  intro ev hev hlogout
  rw [List.mem_singleton.mp hev] at hlogout
  cases hlogout

/-- The first account asks for itself. -/
theorem access_protocol_registered :
    (∃ ev pair, Admitted secondsDeployment firstWorld [firstEvent] firstAccess ev pair ∧
      pair.user = registeredUser) ∧
      (secondsDeployment.me firstAccess firstWorld).1 = .ok registeredUser := by
  obtain ⟨pair, hadmitted, huser, -⟩ := firstAccess_admitted
  refine ⟨⟨firstEvent, pair, hadmitted, huser⟩, ?_⟩
  exact (access_protocol wholeSeconds_lawful secondsEnv_orderly
    (History.serve firstRequest History.start trivial) (Or.inl firstAccess_issued)
    registeredUser).mpr ⟨firstEvent, pair, hadmitted, huser⟩

/-- The first account lists the users. -/
theorem list_users_answers_first_admin_registered :
    ((∃ ev pair, Admitted secondsDeployment firstWorld [firstEvent] firstAccess ev pair ∧
        FirstAdmin [firstEvent] pair.user) ∧
      [registeredUser] = newestFirst ([firstEvent].filterMap secondsDeployment.account)) ∧
      (secondsDeployment.listUsers firstAccess firstWorld).1 = .ok [registeredUser] := by
  obtain ⟨pair, hadmitted, -, hgrants⟩ := firstAccess_admitted
  have hbefore : ∀ ev ∈ ([] : List (Event TokenPayload)), ∀ req' pair',
      ev.request = .register req' → ¬ev.Grants pair' := fun _ hev => absurd hev List.not_mem_nil
  have hfirst : FirstAdmin [firstEvent] pair.user :=
    ⟨[], firstEvent, [], _, pair, rfl, hbefore, rfl, hgrants, rfl, rfl⟩
  have hshown : [registeredUser] =
      newestFirst ([firstEvent].filterMap secondsDeployment.account) := by
    obtain ⟨account, haccounts, huser⟩ : ∃ account,
        [firstEvent].filterMap secondsDeployment.account = [account] ∧
          account.toUser = registeredUser := ⟨_, rfl, rfl⟩
    rw [haccounts, newestFirst, List.map_singleton, huser, List.mergeSort_singleton]
  have hanswers := (list_users_answers_first_admin wholeSeconds_lawful secondsEnv_orderly
    (History.serve firstRequest History.start trivial) (Or.inl firstAccess_issued)
    [registeredUser]).mpr ⟨⟨firstEvent, pair, hadmitted, hfirst⟩, hshown⟩
  exact ⟨⟨⟨firstEvent, pair, hadmitted, hfirst⟩, hshown⟩, hanswers⟩

end witness

end SecurityScanner.Auth
