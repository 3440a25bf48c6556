import SecurityScanner.Lib.Table
import SecurityScanner.Lib.ThreadPool
import Mathlib.Algebra.Order.Ring.Rat

/-!
# Refresh tokens

`executor/api/auth.py` and the route `refresh` of `executor/api/auth_routes.py`. PyJWT is a
parameter; its tokens are of any type. A lookup names the function that makes it, since one
request looks for the revoked token twice.
-/

namespace SecurityScanner.Auth

open Storage Interleaving

abbrev UserId := Nat

/-- The claims of a token; times are seconds. -/
structure TokenPayload where
  sub : Option UserId
  role : Option String
  type : Option String
  jti : Option String
  iat : Option ℚ
  exp : Option ℚ
  deriving DecidableEq

inductive JwtError where
  | expiredSignature
  | invalid

/-- `jwt.encode` and, for the current time, `jwt.decode`. -/
structure Jwt (τ : Type) where
  encode : TokenPayload → τ
  decode : τ → ℚ → Except JwtError TokenPayload

structure Settings where
  accessTokenExpireMinutes : ℚ := 30
  refreshTokenExpireDays : ℚ := 7

structure User where
  id : UserId
  email : String
  fullName : Option String
  role : String
  isActive : Bool
  createdAt : ℚ

structure RevokedToken where
  jti : String
  expiresAt : ℚ

structure TokenResponse (τ : Type) where
  success : Bool := true
  message : String := "Authentication successful"
  accessToken : τ
  refreshToken : τ
  tokenType : String := "bearer"
  user : User

/-- What a request can fail with; all but `http` end as an internal server error. -/
inductive ApiError where
  | http (statusCode : Nat) (detail : String)
  | integrityError
  | keyError

/-- The function a lookup of a revoked token is made by. -/
inductive Lookup where
  | isTokenRevoked | revokeToken

inductive Cmd (τ : Type) where
  | time
  | uuid
  | getRevoked (site : Lookup) (jti : String)
  | getUser (id : UserId)
  | addRevoked (row : RevokedToken)
  | send (response : TokenResponse τ)

abbrev Reply {τ : Type} : Cmd τ → Type
  | .time => ℚ
  | .uuid => String
  | .getRevoked .. => Option RevokedToken
  | .getUser _ => Option User
  | _ => Unit

/-- The part of a reply the store does not determine. -/
inductive Answer where
  | done
  | clock (t : ℚ)
  | uuid (hex : String)

structure Store (τ : Type) where
  users : Table User UserId User.id := .empty
  revoked : Table RevokedToken String RevokedToken.jti := .empty
  sent : List (TokenResponse τ) := []

/-- Read committed: a lookup sees the rows committed by then, and the primary key of
`revoked_tokens` is checked at the commit. -/
def Store.effect {τ : Type} (c : Cmd τ) (a : Answer) (s : Store τ) :
    Option (Except ApiError (Reply c) × Store τ) :=
  match c, a with
  | .time, .clock t => some (.ok t, s)
  | .uuid, .uuid hex => some (.ok hex, s)
  | .getRevoked _ jti, .done => some (.ok (s.revoked.find? jti), s)
  | .getUser id, .done => some (.ok (s.users.find? id), s)
  | .addRevoked row, .done =>
    match s.revoked.insert? row with
    | some revoked => some (.ok (), { s with revoked })
    | none => some (.error .integrityError, s)
  | .send response, .done => some (.ok (), { s with sent := s.sent ++ [response] })
  | _, _ => none

/-- The handlers of the API. -/
abbrev Handler (τ : Type) (α : Type) := Prog (Cmd τ) Reply ApiError α

abbrev await {τ : Type} (c : Cmd τ) : Handler τ (Reply c) := Prog.perform c

variable {τ : Type} (jwt : Jwt τ) (settings : Settings)

/-- `_create_token`. -/
def createToken (sub : UserId) (role type : String) (expiresDelta : ℚ) : Handler τ τ := do
  let now ← await .time
  let jti ← await .uuid
  pure (jwt.encode
    { sub := some sub
      role := some role
      type := some type
      jti := some jti
      iat := some now
      exp := some (now + expiresDelta) })

/-- What it takes for a request to be allowed to create a token. -/
lemma follows_createToken_of_keeps {G : Type} {P : Protocol (Cmd τ) Reply ApiError G} {g : G}
    (htime : P.Keeps g .time) (huuid : P.Keeps g .uuid) (sub : UserId) (role type : String)
    (delta : ℚ) :
    Follows P g (createToken jwt sub role type delta)
      (fun r g' => (∃ token, r = .ok token) ∧ g' = g) :=
  htime.bind fun _ => huuid.bind fun _ => ⟨⟨_, rfl⟩, rfl⟩

def createAccessToken (user : User) : Handler τ τ :=
  createToken jwt user.id user.role "access" (60 * settings.accessTokenExpireMinutes)

def createRefreshToken (user : User) : Handler τ τ :=
  createToken jwt user.id user.role "refresh" (86400 * settings.refreshTokenExpireDays)

def decodeToken (token : τ) : Handler τ TokenPayload := do
  let now ← await .time
  match jwt.decode token now with
  | .ok payload => pure payload
  | .error .expiredSignature => throw (.http 401 "Token has expired")
  | .error .invalid => throw (.http 401 "Invalid authentication token")

/-- The `jti` of a payload, unless it is missing or empty. -/
def truthyJti (jti : Option String) : Option String := jti.filter (· ≠ "")

def isTokenRevoked (jti : Option String) : Handler τ Bool :=
  match truthyJti jti with
  | none => pure false
  | some jti => do
    let row ← await (.getRevoked .isTokenRevoked jti)
    pure row.isSome

def revokeToken (payload : TokenPayload) : Handler τ Unit :=
  match truthyJti payload.jti with
  | none => pure ()
  | some jti => do
    match ← await (.getRevoked .revokeToken jti) with
    | some _ => pure ()
    | none =>
      let expiresAt ← match payload.exp.filter (· ≠ 0) with
        | some exp => pure exp
        | none => await .time
      await (.addRevoked ⟨jti, expiresAt⟩)

def refresh (refreshToken : τ) : Handler τ (TokenResponse τ) := do
  let payload ← decodeToken jwt refreshToken
  if payload.type ≠ some "refresh" then throw (.http 401 "Not a refresh token")
  else
    let isRevoked ← isTokenRevoked payload.jti
    if isRevoked then throw (.http 401 "Refresh token has been revoked")
    else
      match payload.sub with
      | none => throw .keyError
      | some sub =>
        match ← await (.getUser sub) with
        | none => throw (.http 401 "User not found or inactive")
        | some user =>
          if user.isActive then
            revokeToken payload
            let accessToken ← createAccessToken jwt settings user
            let refreshToken ← createRefreshToken jwt settings user
            pure { message := "Token refreshed", accessToken, refreshToken, user }
          else throw (.http 401 "User not found or inactive")

/-- A request to `/refresh`: the handler and its answer. -/
def refreshRequest (refreshToken : τ) : Handler τ Unit := do
  let response ← refresh jwt settings refreshToken
  await (.send response)

/-- Any number of requests over one database. -/
def requestSystem (τ : Type) : System (Cmd τ) Reply ApiError (Store τ) Answer where
  effect := Store.effect
  fork _ _ := none

end SecurityScanner.Auth
