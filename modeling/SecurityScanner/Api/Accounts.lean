import SecurityScanner.Api.Auth
import SecurityScanner.Lib.Python

/-!
# Accounts

The routes `register`, `login`, `refresh` and `logout` of `executor/api/auth_routes.py` and the
dependency `get_current_user` of `executor/api/auth.py`, over a database that keeps the accounts as
well. A request of `register` or `login` has passed its validators. What the columns' defaults
draw, an id and a time, are calls.
-/

namespace SecurityScanner.Auth

open Storage Interleaving

/-- A row of the table `users`. -/
structure Account extends User where
  hashedPassword : String

structure RegisterRequest where
  email : String
  password : String
  fullName : Option String := none
  role : Option String := none

structure LoginRequest where
  email : String
  password : String

structure LogoutResponse where
  success : Bool := true
  message : String := "Logged out"

/-- `hash_password`, for a salt, and `verify_password`. -/
structure Passwords where
  hash : String → String → String
  verify : String → String → Bool

section commands

inductive AccountCmd (τ : Type) where
  | token (c : Cmd τ)
  | salt
  | newId
  | userByEmail (email : String)
  | firstUser
  | addUser (account : Account)

abbrev AccountReply {τ : Type} : AccountCmd τ → Type
  | .token c => Reply c
  | .salt => String
  | .newId => UserId
  | .userByEmail _ => Option Account
  | .firstUser => Option Account
  | .addUser _ => Unit

inductive AccountAnswer where
  | token (a : Answer)
  | salt (s : String)
  | id (n : UserId)
  | done

structure AccountStore (τ : Type) where
  users : Table Account UserId (fun a => a.id) := .empty
  revoked : Table RevokedToken String RevokedToken.jti := .empty
  sent : List (TokenResponse τ) := []

variable {τ : Type}

/-- The database without what the accounts have on top of their users. -/
def AccountStore.tokens (s : AccountStore τ) : Store τ where
  users :=
    { rows := s.users.rows.map Account.toUser
      nodup := by
        rw [List.map_map]
        exact s.users.nodup }
  revoked := s.revoked
  sent := s.sent

/-- The commit of a new account: emails and ids are unique. -/
def AccountStore.addUser (s : AccountStore τ) (account : Account) :
    Except ApiError Unit × AccountStore τ :=
  if account.email ∈ s.users.rows.map (fun a => a.email) then (.error .integrityError, s)
  else match s.users.insert? account with
    | some users => (.ok (), { s with users })
    | none => (.error .integrityError, s)

/-- Read committed, as for the tokens. -/
def AccountStore.effect (c : AccountCmd τ) (a : AccountAnswer) (s : AccountStore τ) :
    Option (Except ApiError (AccountReply c) × AccountStore τ) :=
  match c, a with
  | .token c, .token a =>
    (Store.effect c a s.tokens).map fun rt =>
      (rt.1, { s with revoked := rt.2.revoked, sent := rt.2.sent })
  | .salt, .salt salt => some (.ok salt, s)
  | .newId, .id n => some (.ok n, s)
  | .userByEmail email, .done => some (.ok (s.users.rows.find? fun a => a.email = email), s)
  | .firstUser, .done => some (.ok s.users.rows.head?, s)
  | .addUser account, .done => some (s.addUser account)
  | _, _ => none

/-- The handlers that work on accounts. -/
abbrev AccountHandler (τ : Type) (α : Type) := Prog (AccountCmd τ) AccountReply ApiError α

abbrev ask (c : AccountCmd τ) : AccountHandler τ (AccountReply c) := Prog.perform c

/-- A handler that works on tokens. -/
def onTokens {α : Type} (p : Handler τ α) : AccountHandler τ α := Prog.embed AccountCmd.token p

end commands

variable {τ : Type} (jwt : Jwt τ) (settings : Settings) (passwords : Passwords)

/-- The values of `UserRole`. -/
def validRoles : List String := ["admin", "user", "viewer"]

/-- The pair of tokens that a route answers with. -/
def tokenResponse (message : String) (user : User) : AccountHandler τ (TokenResponse τ) := do
  let accessToken ← onTokens (createAccessToken jwt settings user)
  let refreshToken ← onTokens (createRefreshToken jwt settings user)
  pure { message, accessToken, refreshToken, user }

/-- The role of a new account. -/
def newRole (first : Option Account) (requested : Option String) : String :=
  match first with
  | some _ => "user"
  | none => (requested.filter (· ∈ validRoles)).getD "admin"

/-- `register`. What the commit has written is what `db.refresh` reads back, since no request
changes or deletes a user. -/
def register (req : RegisterRequest) : AccountHandler τ (TokenResponse τ) := do
  match ← ask (.userByEmail req.email) with
  | some _ => throw (.http 409 "An account with this email already exists")
  | none =>
    let first ← ask .firstUser
    let salt ← ask .salt
    let id ← ask .newId
    let createdAt ← onTokens (await .time)
    let account : Account :=
      { id
        email := req.email
        fullName := req.fullName
        role := newRole first req.role
        isActive := true
        createdAt
        hashedPassword := passwords.hash req.password salt }
    ask (.addUser account)
    tokenResponse jwt settings "Authentication successful" account.toUser

/-- `req.email.strip().lower()`. -/
def normalizeEmail (I : Python.Interpreter) (email : String) : String :=
  I.lower (String.ofList (Python.strip email))

/-- `login`. -/
def login (I : Python.Interpreter) (req : LoginRequest) : AccountHandler τ (TokenResponse τ) := do
  match ← ask (.userByEmail (normalizeEmail I req.email)) with
  | none => throw (.http 401 "Invalid email or password")
  | some account =>
    if passwords.verify req.password account.hashedPassword then
      if account.isActive then
        tokenResponse jwt settings "Authentication successful" account.toUser
      else throw (.http 403 "Account is disabled")
    else throw (.http 401 "Invalid email or password")

/-- `logout`. -/
def logout (refreshToken : τ) : Handler τ LogoutResponse := do
  try
    let payload ← decodeToken jwt refreshToken
    revokeToken payload
  catch
    | .http _ _ => pure ()
    | e => throw e
  pure {}

/-- `_user_from_token`. -/
def userFromToken (token : τ) (expectedType : String) : Handler τ User := do
  let payload ← decodeToken jwt token
  if payload.type ≠ some expectedType then throw (.http 401 "Wrong token type")
  else
    let isRevoked ← isTokenRevoked payload.jti
    if isRevoked then throw (.http 401 "Token has been revoked")
    else
      let user ← match payload.sub with
        | some sub => await (.getUser sub)
        | none => pure none
      match user with
      | none => throw (.http 401 "User not found or inactive")
      | some user =>
        if user.isActive then pure user else throw (.http 401 "User not found or inactive")

/-- `get_current_user`, for the credentials of the header where there are any. -/
def getCurrentUser (creds : Option τ) : Handler τ User :=
  match creds with
  | none => throw (.http 401 "Authentication required")
  | some token => userFromToken jwt token "access"

end SecurityScanner.Auth
