import SecurityScanner.Api.Accounts

/-!
# Sequential histories of token requests

Requests of `register`, `login`, `refresh` and `logout` that are served one after the other. The
clock may advance at every call, and between two requests.
-/

namespace SecurityScanner.Auth

open Storage Interleaving

section histories

/-- What the surroundings answer to the calls of a history, by their number. -/
structure Env where
  clock : Nat → ℚ
  uuid : Nat → String
  salt : Nat → String
  newId : Nat → UserId

/-- A database and the number of the next call. -/
structure World (τ : Type) where
  store : AccountStore τ
  calls : Nat

variable {τ : Type}

def World.skip (w : World τ) (n : Nat) : World τ := ⟨w.store, w.calls + n⟩

def Env.answer (E : Env) (n : Nat) : AccountCmd τ → AccountAnswer
  | .token .time => .token (.clock (E.clock n))
  | .token .uuid => .token (.uuid (E.uuid n))
  | .token _ => .token .done
  | .salt => .salt (E.salt n)
  | .newId => .id (E.newId n)
  | _ => .done

/-- One call of a request that runs alone. -/
def Env.handle (E : Env) (c : AccountCmd τ) (w : World τ) :
    Except ApiError (AccountReply c) × World τ :=
  match AccountStore.effect c (E.answer w.calls c) w.store with
  | some (r, store) => (r, ⟨store, w.calls + 1⟩)
  | none => (.error .integrityError, w.skip 1)

/-- A service with its surroundings. -/
structure Deployment (τ : Type) where
  jwt : Jwt τ
  settings : Settings
  passwords : Passwords
  interpreter : Python.Interpreter
  env : Env

inductive AccountRequest (τ : Type) where
  | register (req : RegisterRequest)
  | login (req : LoginRequest)
  | refresh (token : τ)
  | logout (token : τ)

variable (D : Deployment τ)

/-- The route of a request; `logout` answers without tokens. -/
def Deployment.route : AccountRequest τ → AccountHandler τ (Option (TokenResponse τ))
  | .register req => some <$> register D.jwt D.settings D.passwords req
  | .login req => some <$> login D.jwt D.settings D.passwords D.interpreter req
  | .refresh token => some <$> onTokens (refresh D.jwt D.settings token)
  | .logout token => (fun _ => none) <$> onTokens (logout D.jwt token)

def Deployment.serve (request : AccountRequest τ) (w : World τ) :
    Except ApiError (Option (TokenResponse τ)) × World τ :=
  (D.route request).run D.env.handle w

/-- `GET /me` with a token. -/
def Deployment.me (token : τ) (w : World τ) : Except ApiError User × World τ :=
  (onTokens (getCurrentUser D.jwt (some token))).run D.env.handle w

/-- A request of a history with the calls from its first to the one after its last. -/
structure Event (τ : Type) where
  request : AccountRequest τ
  start : Nat
  finish : Nat
  answer : Except ApiError (Option (TokenResponse τ))

/-- The request was answered with a pair of tokens. -/
def Event.Grants (ev : Event τ) (pair : TokenResponse τ) : Prop := ev.answer = .ok (some pair)

def IssuedAccess (events : List (Event τ)) (t : τ) : Prop :=
  ∃ ev ∈ events, ∃ pair, ev.Grants pair ∧ pair.accessToken = t

def IssuedRefresh (events : List (Event τ)) (t : τ) : Prop :=
  ∃ ev ∈ events, ∃ pair, ev.Grants pair ∧ pair.refreshToken = t

def Deployment.event (request : AccountRequest τ) (w : World τ) : Event τ where
  request := request
  start := w.calls
  finish := (D.serve request w).2.calls
  answer := (D.serve request w).1

/-- A token that somebody can present: signatures are not forged. -/
def Presentable (events : List (Event τ)) (t : τ) : Prop :=
  IssuedAccess events t ∨ IssuedRefresh events t ∨ ∀ now, ∃ e, D.jwt.decode t now = .error e

def AccountRequest.Presents (events : List (Event τ)) : AccountRequest τ → Prop
  | .refresh token => Presentable D events token
  | .logout token => Presentable D events token
  | _ => True

/-- The worlds that requests lead to, one after the other, with what has happened. -/
inductive History (init : AccountStore τ) : World τ → List (Event τ) → Prop
  | start : History init ⟨init, 0⟩ []
  | serve {w : World τ} {events : List (Event τ)} (request : AccountRequest τ) :
      History init w events → request.Presents D events →
      History init (D.serve request w).2 (events ++ [D.event request w])
  | wait {w : World τ} {events : List (Event τ)} (n : Nat) :
      History init w events → History init (w.skip n) events

end histories

section hypotheses

variable {τ : Type}

/-- `jwt.encode` writes times in whole seconds, and `jwt.decode` takes a token that is not from
the future up to its expiry. -/
def Jwt.Lawful (jwt : Jwt τ) : Prop :=
  ∀ sub role type jti iat exp now, (⌊iat⌋ : ℚ) ≤ now →
    jwt.decode (jwt.encode ⟨some sub, some role, some type, some jti, some iat, some exp⟩) now =
      if (⌊exp⌋ : ℚ) ≤ now then .error .expiredSignature
      else .ok ⟨some sub, some role, some type, some jti, some (⌊iat⌋ : ℚ), some (⌊exp⌋ : ℚ)⟩

/-- The clock does not go back, and a `jti` is drawn once. -/
structure Env.Orderly (E : Env) (init : AccountStore τ) : Prop where
  clock : Monotone E.clock
  uuid : Function.Injective E.uuid
  uuid_ne : ∀ n, E.uuid n ≠ ""
  uuid_new : ∀ n, init.revoked.find? (E.uuid n) = none

end hypotheses

section runs

variable {τ : Type} {jwt : Jwt τ} {settings : Settings} {E : Env}

/-- The claims of a token that is created with the call number `n`. -/
def Env.claims (E : Env) (n : Nat) (sub : UserId) (role type : String) (delta : ℚ) : TokenPayload where
  sub := some sub
  role := some role
  type := some type
  jti := some (E.uuid (n + 1))
  iat := some (E.clock n)
  exp := some (E.clock n + delta)

/-- One call of a handler that works on tokens. -/
abbrev Env.tokenHandle (E : Env) (c : Cmd τ) (w : World τ) : Except ApiError (Reply c) × World τ :=
  E.handle (.token c) w

lemma run_tokenResponse (message : String) (user : User) (w : World τ) :
    (tokenResponse jwt settings message user).run E.handle w =
      (.ok
        { message
          accessToken := jwt.encode (E.claims w.calls user.id user.role "access"
            (60 * settings.accessTokenExpireMinutes))
          refreshToken := jwt.encode (E.claims (w.calls + 2) user.id user.role "refresh"
            (86400 * settings.refreshTokenExpireDays))
          user }, w.skip 4) := rfl

lemma run_onTokens {α : Type} (p : Handler τ α) (w : World τ) :
    (onTokens p).run E.handle w = p.run E.tokenHandle w := by
  unfold onTokens
  rw [Prog.run_embed]

lemma tokenHandle_time (w : World τ) :
    E.tokenHandle (.time : Cmd τ) w = (.ok (E.clock w.calls), w.skip 1) := rfl

lemma tokenHandle_getRevoked (site : Lookup) (jti : String) (w : World τ) :
    E.tokenHandle (.getRevoked site jti) w = (.ok (w.store.revoked.find? jti), w.skip 1) := rfl

lemma tokenHandle_getUser (id : UserId) (w : World τ) :
    E.tokenHandle (.getUser id) w = (.ok (w.store.tokens.users.find? id), w.skip 1) := rfl

lemma run_decodeToken_ok {t : τ} {p : TokenPayload} {w : World τ}
    (h : jwt.decode t (E.clock w.calls) = .ok p) :
    (decodeToken jwt t).run E.tokenHandle w = (.ok p, w.skip 1) := by
  unfold decodeToken
  rw [Prog.run_bind, await, Prog.run_perform, tokenHandle_time]
  dsimp only
  rw [h]
  rfl

lemma run_decodeToken_error {t : τ} {e : JwtError} {w : World τ}
    (h : jwt.decode t (E.clock w.calls) = .error e) :
    ∃ detail, (decodeToken jwt t).run E.tokenHandle w = (.error (.http 401 detail), w.skip 1) := by
  unfold decodeToken
  rw [Prog.run_bind, await, Prog.run_perform, tokenHandle_time]
  dsimp only
  rw [h]
  cases e
  · exact ⟨_, rfl⟩
  · exact ⟨_, rfl⟩

lemma truthyJti_some {jti : String} (h : jti ≠ "") : truthyJti (some jti) = some jti := by
  simp [truthyJti, h]

lemma run_isTokenRevoked {jti : String} (hne : jti ≠ "") (w : World τ) :
    (isTokenRevoked (some jti)).run E.tokenHandle w =
      (.ok (w.store.revoked.find? jti).isSome, w.skip 1) := by
  unfold isTokenRevoked
  rw [truthyJti_some hne]
  rfl

/-- The token is revoked, and nothing else. -/
structure Revoking (jti : String) (w w' : World τ) : Prop where
  calls : w.calls ≤ w'.calls
  revoked : ∀ j, (w'.store.revoked.find? j).isSome ↔ (w.store.revoked.find? j).isSome ∨ j = jti

lemma Revoking.of_skip {jti : String} {w w' : World τ} {n : Nat} (h : Revoking jti (w.skip n) w') :
    Revoking jti w w' :=
  ⟨(Nat.le_add_right _ n).trans h.calls, h.revoked⟩

lemma run_addRevoked (row : RevokedToken) (w : World τ)
    (hnew : w.store.revoked.find? row.jti = none) :
    ∃ w', (await (.addRevoked row)).run E.tokenHandle w = (.ok (), w') ∧ Revoking row.jti w w' := by
  obtain ⟨revoked, hinsert, -⟩ := Table.insert?_of_find?_eq_none hnew
  have heffect : E.tokenHandle (.addRevoked row) w =
      (.ok (), ⟨{ w.store with revoked }, w.calls + 1⟩) := by
    unfold Env.tokenHandle Env.handle AccountStore.effect Env.answer Store.effect
    dsimp only
    have hrevoked : w.store.tokens.revoked.insert? row = some revoked := hinsert
    rw [hrevoked]
    rfl
  refine ⟨_, (Prog.run_perform _).trans heffect, Nat.le_succ _, ?_⟩
  intro j
  change (revoked.find? j).isSome ↔ _
  rw [Table.find?_insert? hinsert]
  by_cases hj : j = row.jti
  · simp [hj]
  · simp [hj]

lemma run_revokeToken {payload : TokenPayload} {jti : String} (hjti : payload.jti = some jti)
    (hne : jti ≠ "") (w : World τ) :
    ∃ w', (revokeToken payload).run E.tokenHandle w = (.ok (), w') ∧ Revoking jti w w' := by
  unfold revokeToken
  rw [hjti, truthyJti_some hne]
  dsimp only
  rw [Prog.run_bind, await, Prog.run_perform, tokenHandle_getRevoked]
  dsimp only
  cases hfind : w.store.revoked.find? jti with
  | some row =>
    refine ⟨w.skip 1, rfl, Nat.le_succ _, ?_⟩
    intro j
    by_cases hj : j = jti
    · simp [hj, World.skip, hfind]
    · simp [hj, World.skip]
  | none =>
    cases payload.exp.filter (· ≠ 0) with
    | some exp =>
      obtain ⟨w', hw', hrevoking⟩ := run_addRevoked ⟨jti, exp⟩ (w.skip 1) hfind
      exact ⟨w', hw', hrevoking.of_skip⟩
    | none =>
      obtain ⟨w', hw', hrevoking⟩ :=
        run_addRevoked ⟨jti, E.clock (w.skip 1).calls⟩ (w.skip 2) hfind
      exact ⟨w', hw', hrevoking.of_skip⟩

end runs

section refresh

variable {τ : Type} {jwt : Jwt τ} {settings : Settings} {E : Env}

/-- The payload of a token that `_create_token` has made. -/
structure TokenPayload.Complete (p : TokenPayload) (sub : UserId) (jti : String) : Prop where
  sub_eq : p.sub = some sub
  jti_eq : p.jti = some jti
  jti_ne : jti ≠ ""

/-- The user of a token exists and is active. -/
def AccountStore.HasActive (s : AccountStore τ) (sub : UserId) : Prop :=
  ∃ account, s.users.find? sub = some account ∧ account.isActive = true

lemma find?_tokens (s : AccountStore τ) (id : UserId) :
    s.tokens.users.find? id = (s.users.find? id).map Account.toUser := by
  unfold Table.find? AccountStore.tokens
  rw [List.find?_map]
  rfl

/-- What `refresh` asks of a token with the payload `p`. -/
structure Takes (jwt : Jwt τ) (E : Env) (t : τ) (w : World τ) (p : TokenPayload) (sub : UserId)
    (jti : String) : Prop where
  decode : jwt.decode t (E.clock w.calls) = .ok p
  complete : p.Complete sub jti
  type_eq : p.type = some "refresh"
  kept : w.store.revoked.find? jti = none
  active : w.store.HasActive sub

variable (settings) in
/-- `refresh` of a token that it takes. -/
lemma run_refresh_accepted {t : τ} {p : TokenPayload} {sub : UserId} {jti : String} {w : World τ}
    (h : Takes jwt E t w p sub jti) :
    ∃ w' user, Revoking jti w w' ∧ (refresh jwt settings t).run E.tokenHandle w =
      (.ok
        { message := "Token refreshed"
          accessToken := jwt.encode (E.claims w'.calls user.id user.role "access"
            (60 * settings.accessTokenExpireMinutes))
          refreshToken := jwt.encode (E.claims (w'.calls + 2) user.id user.role "refresh"
            (86400 * settings.refreshTokenExpireDays))
          user }, w'.skip 4) := by
  obtain ⟨hdecode, hp, htype, hkept, account, haccount, hisActive⟩ := h
  have huser : (w.skip 2).store.tokens.users.find? sub = some account.toUser := by
    rw [find?_tokens]
    exact congrArg _ haccount
  obtain ⟨w', hw', hrevoking⟩ := run_revokeToken (E := E) hp.jti_eq hp.jti_ne (w.skip 3)
  refine ⟨w', account.toUser, hrevoking.of_skip, ?_⟩
  have hnot : ((w.skip 1).store.revoked.find? jti).isSome = false := by
    rw [World.skip, hkept]
    rfl
  have hskip : (w.skip 1).skip 1 = w.skip 2 := rfl
  have hskip' : (w.skip 2).skip 1 = w.skip 3 := rfl
  unfold refresh
  rw [Prog.run_bind, run_decodeToken_ok hdecode]
  dsimp only
  rw [if_neg (not_not.mpr htype), Prog.run_bind, hp.jti_eq, run_isTokenRevoked hp.jti_ne, hnot]
  dsimp only
  rw [if_neg Bool.false_ne_true, hp.sub_eq, hskip]
  dsimp only
  rw [Prog.run_bind, await, Prog.run_perform, tokenHandle_getUser, huser, hskip']
  dsimp only
  rw [if_pos hisActive, Prog.run_bind, hw']
  rfl

variable (settings) in
/-- `refresh` of any other token leaves the database alone. -/
lemma run_refresh_refused {t : τ} {w : World τ}
    (hcomplete : ∀ p, jwt.decode t (E.clock w.calls) = .ok p → ∃ sub jti, p.Complete sub jti)
    (hnot : ∀ p sub jti, ¬Takes jwt E t w p sub jti) :
    ∃ e n, (refresh jwt settings t).run E.tokenHandle w = (.error e, w.skip n) := by
  unfold refresh
  rw [Prog.run_bind]
  cases hdecode : jwt.decode t (E.clock w.calls) with
  | error e =>
    obtain ⟨detail, hrun⟩ := run_decodeToken_error hdecode
    rw [hrun]
    exact ⟨_, 1, rfl⟩
  | ok p =>
    obtain ⟨sub, jti, hp⟩ := hcomplete p hdecode
    rw [run_decodeToken_ok hdecode]
    dsimp only
    by_cases htype : p.type = some "refresh"
    · rw [if_neg (not_not.mpr htype), Prog.run_bind, hp.jti_eq, run_isTokenRevoked hp.jti_ne]
      dsimp only
      cases hfind : w.store.revoked.find? jti with
      | some row =>
        have hsome : ((w.skip 1).store.revoked.find? jti).isSome = true := by
          rw [World.skip, hfind]
          rfl
        rw [hsome]
        exact ⟨_, 2, rfl⟩
      | none =>
        have hnone : ((w.skip 1).store.revoked.find? jti).isSome = false := by
          rw [World.skip, hfind]
          rfl
        have hinactive : ¬w.store.HasActive sub := fun hactive =>
          hnot p sub jti ⟨hdecode, hp, htype, hfind, hactive⟩
        rw [hnone, if_neg Bool.false_ne_true, hp.sub_eq]
        dsimp only
        rw [Prog.run_bind, await, Prog.run_perform, tokenHandle_getUser, find?_tokens]
        dsimp only
        cases huser : ((w.skip 1).skip 1).store.users.find? sub with
        | none => exact ⟨_, 3, rfl⟩
        | some account =>
          have hfalse : account.isActive = false := by
            rw [Bool.eq_false_iff]
            exact fun hactive => hinactive ⟨account, huser, hactive⟩
          dsimp only [Option.map_some]
          rw [hfalse, if_neg Bool.false_ne_true]
          exact ⟨_, 3, rfl⟩
    · rw [if_pos htype]
      exact ⟨_, 1, rfl⟩

/-- `get_current_user` takes no token of another type. -/
lemma run_getCurrentUser_type {t : τ} {w : World τ}
    (htype : ∀ p, jwt.decode t (E.clock w.calls) = .ok p → p.type ≠ some "access") :
    ∃ e, ((getCurrentUser jwt (some t)).run E.tokenHandle w).1 = .error e := by
  unfold getCurrentUser userFromToken
  dsimp only
  rw [Prog.run_bind]
  cases hdecode : jwt.decode t (E.clock w.calls) with
  | error e =>
    obtain ⟨detail, hrun⟩ := run_decodeToken_error hdecode
    rw [hrun]
    exact ⟨_, rfl⟩
  | ok p =>
    rw [run_decodeToken_ok hdecode]
    dsimp only
    rw [if_pos (htype p hdecode)]
    exact ⟨_, rfl⟩

end refresh

section logout

variable {τ : Type} {jwt : Jwt τ} {E : Env}

/-- `logout` of a token that is valid revokes it. -/
lemma run_logout_valid {t : τ} {p : TokenPayload} {sub : UserId} {jti : String} {w : World τ}
    (hdecode : jwt.decode t (E.clock w.calls) = .ok p) (hp : p.Complete sub jti) :
    ∃ w', Revoking jti w w' ∧ (logout jwt t).run E.tokenHandle w = (.ok {}, w') := by
  obtain ⟨w', hw', hrevoking⟩ := run_revokeToken (E := E) hp.jti_eq hp.jti_ne (w.skip 1)
  refine ⟨w', hrevoking.of_skip, ?_⟩
  unfold logout
  rw [Prog.run_bind, Prog.run_tryCatch, Prog.run_bind, run_decodeToken_ok hdecode]
  dsimp only
  rw [hw']
  rfl

/-- `logout` of any other token is a success as well. -/
lemma run_logout_invalid {t : τ} {e : JwtError} {w : World τ}
    (hdecode : jwt.decode t (E.clock w.calls) = .error e) :
    (logout jwt t).run E.tokenHandle w = (.ok {}, w.skip 1) := by
  obtain ⟨detail, hrun⟩ := run_decodeToken_error hdecode
  unfold logout
  rw [Prog.run_bind, Prog.run_tryCatch, Prog.run_bind, hrun]
  rfl

end logout

section accounts

variable {τ : Type} {jwt : Jwt τ} {settings : Settings} {passwords : Passwords} {E : Env}

/-- The pair that is created for the user from the call number `n` on. -/
structure PairAt (jwt : Jwt τ) (settings : Settings) (E : Env) (n : Nat) (user : User)
    (pair : TokenResponse τ) : Prop where
  user_eq : pair.user = user
  access : pair.accessToken = jwt.encode (E.claims n user.id user.role "access"
    (60 * settings.accessTokenExpireMinutes))
  refresh : pair.refreshToken = jwt.encode (E.claims (n + 2) user.id user.role "refresh"
    (86400 * settings.refreshTokenExpireDays))

/-- A request that leaves the revoked tokens alone, and creates the pair that it answers with last. -/
structure SignsIn (jwt : Jwt τ) (settings : Settings) (E : Env) (w : World τ)
    (done : Except ApiError (TokenResponse τ) × World τ) : Prop where
  calls : w.calls ≤ done.2.calls
  revoked : done.2.store.revoked = w.store.revoked
  pair : ∀ pair, done.1 = .ok pair →
    ∃ n user, w.calls ≤ n ∧ done.2.calls = n + 4 ∧ PairAt jwt settings E n user pair

lemma signsIn_error (e : ApiError) (w : World τ) (n : Nat) :
    SignsIn jwt settings E w (.error e, w.skip n) where
  calls := Nat.le_add_right _ n
  revoked := rfl
  pair pair h := by cases h

lemma signsIn_tokenResponse {w w' : World τ} (hcalls : w.calls ≤ w'.calls)
    (hrevoked : w'.store.revoked = w.store.revoked) (message : String) (user : User) :
    SignsIn jwt settings E w ((tokenResponse jwt settings message user).run E.handle w') := by
  rw [run_tokenResponse]
  refine ⟨hcalls.trans (Nat.le_add_right _ 4), hrevoked, ?_⟩
  intro pair hpair
  obtain rfl := Except.ok.inj hpair
  exact ⟨w'.calls, user, hcalls, rfl, rfl, rfl, rfl⟩

lemma handle_addUser (account : Account) (w : World τ) :
    E.handle (.addUser account) w =
      ((w.store.addUser account).1, ⟨(w.store.addUser account).2, w.calls + 1⟩) := rfl

lemma addUser_revoked (s : AccountStore τ) (account : Account) :
    (s.addUser account).2.revoked = s.revoked := by
  unfold AccountStore.addUser
  split_ifs
  · rfl
  · cases s.users.insert? account <;> rfl

lemma handle_userByEmail (email : String) (w : World τ) :
    E.handle (.userByEmail email) w =
      (.ok (w.store.users.rows.find? fun a => a.email = email), w.skip 1) := rfl

/-- The account that `register` adds, when its calls start with the number `n`. -/
def newAccount (passwords : Passwords) (E : Env) (n : Nat) (first : Option Account)
    (req : RegisterRequest) : Account where
  id := E.newId (n + 3)
  email := req.email
  fullName := req.fullName
  role := newRole first req.role
  isActive := true
  createdAt := E.clock (n + 4)
  hashedPassword := passwords.hash req.password (E.salt (n + 2))

/-- `register` with a new email comes to its commit. -/
lemma run_register {req : RegisterRequest} {w : World τ}
    (hnew : (w.store.users.rows.find? fun a => a.email = req.email) = none) :
    (register jwt settings passwords req).run E.handle w =
      (ask (.addUser (newAccount passwords E w.calls w.store.users.rows.head? req)) >>= fun _ =>
        tokenResponse jwt settings "Authentication successful"
          (newAccount passwords E w.calls w.store.users.rows.head? req).toUser).run E.handle
        (w.skip 5) := by
  unfold register
  rw [Prog.run_bind, ask, Prog.run_perform, handle_userByEmail, hnew]
  rfl

lemma signsIn_register (req : RegisterRequest) (w : World τ) :
    SignsIn jwt settings E w ((register jwt settings passwords req).run E.handle w) := by
  cases hlookup : w.store.users.rows.find? fun a => a.email = req.email with
  | some account =>
    unfold register
    rw [Prog.run_bind, ask, Prog.run_perform, handle_userByEmail, hlookup]
    exact signsIn_error _ w 1
  | none =>
    rw [run_register hlookup, Prog.run_bind, ask, Prog.run_perform, handle_addUser]
    have hrevoked := addUser_revoked w.store
      (newAccount passwords E w.calls w.store.users.rows.head? req)
    have hskip : (w.skip 5).store = w.store := rfl
    rw [hskip]
    cases hadd : w.store.addUser (newAccount passwords E w.calls w.store.users.rows.head? req) with
    | mk r store =>
      rw [hadd] at hrevoked
      have hcalls : w.calls ≤ (w.skip 5).calls + 1 := by
        change w.calls ≤ w.calls + 5 + 1
        omega
      cases r with
      | error e =>
        refine ⟨hcalls, hrevoked, fun pair h => ?_⟩
        cases h
      | ok u => exact signsIn_tokenResponse hcalls hrevoked _ _

lemma signsIn_login (I : Python.Interpreter) (req : LoginRequest) (w : World τ) :
    SignsIn jwt settings E w ((login jwt settings passwords I req).run E.handle w) := by
  have hcalls : w.calls ≤ (w.skip 1).calls := Nat.le_succ _
  unfold login
  rw [Prog.run_bind, ask, Prog.run_perform, handle_userByEmail]
  dsimp only
  cases w.store.users.rows.find? fun a => a.email = normalizeEmail I req.email with
  | none => exact signsIn_error _ w 1
  | some account =>
    dsimp only
    by_cases hverify : passwords.verify req.password account.hashedPassword = true
    · rw [if_pos hverify]
      by_cases hactive : account.isActive = true
      · rw [if_pos hactive]
        exact signsIn_tokenResponse hcalls rfl _ _
      · rw [if_neg hactive]
        exact signsIn_error _ w 1
    · rw [if_neg hverify]
      exact signsIn_error _ w 1

end accounts

end SecurityScanner.Auth
