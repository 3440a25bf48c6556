import SecurityScanner.Api.Auth

/-!
# Concurrent uses of one refresh token

The primary key lets one request commit the revocation. A request whose second lookup finds
the row returns from `revoke_token` all the same and answers with a new pair; as long as no
second lookup finds the row, the request that owns the row is the only one that answers.
-/

namespace SecurityScanner.Auth

open Storage Interleaving

variable {τ : Type} (jwt : Jwt τ) (settings : Settings)

section protocol

/-- A request before and after it has committed the revocation. -/
inductive Request where
  | asking
  | owner
  deriving DecidableEq

/-- The calls of a request about the token `jti`; only the owner of the row answers. -/
def requestProtocol (τ : Type) (jti : String) : Protocol (Cmd τ) Reply ApiError Request where
  allowed
    | .asking, .time | .asking, .getUser _ => True
    | .asking, .getRevoked _ j => j = jti
    | .asking, .addRevoked row => row.jti = jti
    | .owner, .time | .owner, .uuid | .owner, .send _ => True
    | _, _ => False
  reply
    | _, .getRevoked .revokeToken _, r => r = .ok none
    | _, .addRevoked _, _ => True
    | _, _, r => ∃ a, r = .ok a
  next
    | _, .addRevoked _, .ok _, g => g = .owner
    | _, .send _, _, g => g = .asking
    | g, _, _, g' => g' = g
  child g _ := g
  looping _ := True
  looping_next _ _ _ _ _ _ _ := trivial

variable {jwt}

lemma follows_createToken (jti : String) (sub : UserId) (role type : String) (delta : ℚ) :
    Follows (requestProtocol τ jti) .owner (createToken jwt sub role type delta)
      (fun r g => (∃ token, r = .ok token) ∧ g = .owner) :=
  follows_createToken_of_keeps jwt ⟨trivial, fun _ h => h, fun _ => rfl⟩
    ⟨trivial, fun _ h => h, fun _ => rfl⟩ sub role type delta

/-- `revoke_token` makes the request the owner of the row, or raises. -/
lemma follows_revokeToken {jti : String} {payload : TokenPayload}
    (hjti : payload.jti = some jti) (hne : jti ≠ "") :
    Follows (requestProtocol τ jti) .asking (revokeToken payload) (fun r g =>
      (r = .ok () ∧ g = .owner) ∨ ((∃ e, r = .error e) ∧ g = .asking)) := by
  have htruthy : truthyJti payload.jti = some jti := by simp [truthyJti, hjti, hne]
  simp only [revokeToken, htruthy, follows_bind, await, follows_perform]
  refine ⟨rfl, ?_⟩
  rintro - rfl
  refine ⟨.asking, rfl, ?_⟩
  have hadd : ∀ t, Follows (requestProtocol τ jti) .asking (await (.addRevoked ⟨jti, t⟩))
      (fun r g => (r = .ok () ∧ g = .owner) ∨ ((∃ e, r = .error e) ∧ g = .asking)) := by
    refine fun t => follows_perform.mpr ⟨rfl, fun r _ => ?_⟩
    cases r with
    | ok u => exact ⟨.owner, rfl, Or.inl ⟨rfl, rfl⟩⟩
    | error e => exact ⟨.asking, rfl, Or.inr ⟨⟨e, rfl⟩, rfl⟩⟩
  cases payload.exp.filter (· ≠ 0) with
  | some exp => exact hadd exp
  | none =>
    refine follows_bind.mpr (follows_perform.mpr ⟨trivial, ?_⟩)
    rintro - ⟨t, rfl⟩
    exact ⟨.asking, rfl, hadd t⟩

variable (jwt) in
lemma follows_decodeToken (jti : String) (token : τ) :
    Follows (requestProtocol τ jti) .asking (decodeToken jwt token)
      (fun r g => g = .asking ∧ ∀ p, r = .ok p → ∃ now, jwt.decode token now = .ok p) := by
  simp only [decodeToken, follows_bind, await, follows_perform]
  refine ⟨trivial, ?_⟩
  rintro - ⟨now, rfl⟩
  refine ⟨.asking, rfl, ?_⟩
  dsimp only
  cases hd : jwt.decode token now with
  | ok p =>
    refine ⟨rfl, fun p' hp => ⟨now, ?_⟩⟩
    rw [hd, ← Except.ok.inj hp]
  | error e => cases e <;> exact ⟨rfl, fun p hp => by cases hp⟩

lemma follows_isTokenRevoked {jti : String} {payload : TokenPayload}
    (hjti : payload.jti = some jti) (hne : jti ≠ "") :
    Follows (requestProtocol τ jti) .asking (isTokenRevoked payload.jti)
      (fun r g => (∃ b, r = .ok b) ∧ g = .asking) := by
  have htruthy : truthyJti payload.jti = some jti := by simp [truthyJti, hjti, hne]
  simp only [isTokenRevoked, htruthy, follows_bind, await, follows_perform]
  refine ⟨rfl, ?_⟩
  rintro - ⟨row, rfl⟩
  exact ⟨.asking, rfl, ⟨_, rfl⟩, rfl⟩

/-- A request that returns from the handler owns the row. -/
lemma follows_refresh {token : τ} {payload : TokenPayload} {jti : String}
    (hdecode : ∀ now p, jwt.decode token now = .ok p → p = payload)
    (hjti : payload.jti = some jti) (hne : jti ≠ "") :
    Follows (requestProtocol τ jti) .asking (refresh jwt settings token) (fun r g =>
      ((∃ response, r = .ok response) ∧ g = .owner) ∨ ((∃ e, r = .error e) ∧ g = .asking)) := by
  have hfail : ∀ e : ApiError, Follows (requestProtocol τ jti) .asking
      (throw e : Handler τ (TokenResponse τ)) (fun r g =>
        ((∃ response, r = .ok response) ∧ g = .owner) ∨
          ((∃ e, r = .error e) ∧ g = .asking)) := fun e => Or.inr ⟨⟨e, rfl⟩, rfl⟩
  rw [refresh, follows_bind]
  refine (follows_decodeToken jwt jti token).mono ?_
  rintro r g ⟨rfl, hp⟩
  cases r with
  | error e => exact Or.inr ⟨⟨e, rfl⟩, rfl⟩
  | ok p =>
    obtain ⟨now, hd⟩ := hp p rfl
    obtain rfl := hdecode now p hd
    by_cases htype : p.type = some "refresh"
    swap
    · simp [htype]
    simp only [htype, ne_eq, not_true_eq_false, ↓reduceIte, follows_bind]
    refine (follows_isTokenRevoked hjti hne).mono ?_
    rintro r g ⟨⟨isRevoked, rfl⟩, rfl⟩
    cases isRevoked with
    | true => exact hfail _
    | false =>
      cases hsub : p.sub with
      | none => simp
      | some sub =>
        simp only [Bool.false_eq_true, ↓reduceIte]
        refine follows_bind.mpr (follows_perform.mpr ⟨trivial, ?_⟩)
        rintro - ⟨user, rfl⟩
        refine ⟨.asking, rfl, ?_⟩
        cases user with
        | none => exact hfail _
        | some user =>
          by_cases hactive : user.isActive
          swap
          · simp [hactive]
          simp only [hactive, ↓reduceIte, follows_bind]
          refine (follows_revokeToken hjti hne).mono ?_
          rintro r g (⟨rfl, rfl⟩ | ⟨⟨e, rfl⟩, rfl⟩)
          · refine (follows_createToken jti _ _ _ _).mono ?_
            rintro r g ⟨⟨access, rfl⟩, rfl⟩
            refine (follows_createToken jti _ _ _ _).mono ?_
            rintro r g ⟨⟨refresh, rfl⟩, rfl⟩
            exact Or.inl ⟨⟨_, rfl⟩, rfl⟩
          · exact Or.inr ⟨⟨e, rfl⟩, rfl⟩

lemma follows_refreshRequest {token : τ} {payload : TokenPayload} {jti : String}
    (hdecode : ∀ now p, jwt.decode token now = .ok p → p = payload)
    (hjti : payload.jti = some jti) (hne : jti ≠ "") :
    Follows (requestProtocol τ jti) .asking (refreshRequest jwt settings token)
      (fun _ g => g = .asking) := by
  rw [refreshRequest, follows_bind]
  refine (follows_refresh settings hdecode hjti hne).mono ?_
  rintro r g (⟨⟨response, rfl⟩, rfl⟩ | ⟨⟨e, rfl⟩, rfl⟩)
  · refine follows_perform.mpr ⟨trivial, fun r _ => ⟨.asking, ?_, rfl⟩⟩
    cases r <;> rfl
  · rfl

end protocol

section runs

/-- The lookup of `revoke_token` does not find the row. -/
def RevokesFirst (p : Pool (Cmd τ) Reply ApiError (Store τ)) (act : Act Answer) : Prop :=
  match p.call? act with
  | some (.getRevoked .revokeToken jti) => p.store.revoked.find? jti = none
  | _ => True

instance (p : Pool (Cmd τ) Reply ApiError (Store τ)) (act : Act Answer) :
    Decidable (RevokesFirst p act) := by
  unfold RevokesFirst
  split <;> infer_instance

/-- Any number of requests that present the refresh token, which is not revoked. -/
structure Presented (token : τ) (jti : String) (p : Pool (Cmd τ) Reply ApiError (Store τ)) :
    Prop where
  requests : ∀ t ∈ p.threads, t = ⟨refreshRequest jwt settings token, none⟩
  unrevoked : p.store.revoked.find? jti = none
  unanswered : p.store.sent = []

/-- Answers and owners together are at most as many as rows with the key `jti`. -/
def OneOwner (jti : String) (s : Store τ) (gs : List Request) : Prop :=
  s.sent.length + gs.count .owner ≤ (s.revoked.find? jti).toList.length

/-- A call that does not write. -/
def Cmd.reads : Cmd τ → Bool
  | .addRevoked _ | .send _ => false
  | _ => true

lemma store_of_reads {c : Cmd τ} (hc : c.reads = true) {a : Answer} {s s' : Store τ}
    {r : Except ApiError (Reply c)} (he : Store.effect c a s = some (r, s')) : s' = s := by
  cases c with
  | addRevoked row => cases hc
  | send response => cases hc
  | _ =>
    cases a <;> cases he
    rfl

lemma next_of_reads {jti : String} {c : Cmd τ} (hc : c.reads = true) {g g' : Request}
    {r : Except ApiError (Reply c)} (hn : (requestProtocol τ jti).next g c r g') : g' = g := by
  cases c with
  | addRevoked row => cases hc
  | send response => cases hc
  | _ => cases g <;> exact hn

lemma requestReply_of_effect {jti : String} {g : Request} {c : Cmd τ} {a : Answer}
    {s s' : Store τ} (hfirst : ∀ j, c = .getRevoked .revokeToken j → s.revoked.find? j = none)
    {r : Except ApiError (Reply c)} (he : Store.effect c a s = some (r, s')) :
    (requestProtocol τ jti).reply g c r := by
  cases c with
  | addRevoked row => trivial
  | getRevoked site j =>
    cases a <;> cases he
    cases site with
    | isTokenRevoked => exact ⟨_, rfl⟩
    | revokeToken => exact congrArg _ (hfirst j rfl)
  | _ =>
    cases a <;> cases he
    exact ⟨_, rfl⟩

/-- The commit of the row: nobody has answered before it. -/
lemma OneOwner.addRevoked {s s' : Store τ} {row : RevokedToken} {rest : List Request}
    (h : OneOwner row.jti s (.asking :: rest)) {g' : Request} {a : Answer}
    {r : Except ApiError (Reply (.addRevoked row : Cmd τ))}
    (he : Store.effect (.addRevoked row) a s = some (r, s'))
    (hn : (requestProtocol τ row.jti).next .asking (.addRevoked row) r g') :
    OneOwner row.jti s' (g' :: rest) := by
  cases a <;> simp only [Store.effect, reduceCtorEq] at he
  split at he
  · rename_i revoked hins
    simp only [Option.some.injEq, Prod.mk.injEq] at he
    obtain ⟨rfl, rfl⟩ := he
    obtain rfl : g' = .owner := hn
    have hnone : s.revoked.find? row.jti = none := by
      cases hfind : s.revoked.find? row.jti with
      | none => rfl
      | some row' =>
        rw [Table.insert?_of_find?_eq_some hfind] at hins
        cases hins
    have hrow : revoked.find? row.jti = some row := by
      rw [Table.find?_insert? hins, if_pos rfl]
    simp only [OneOwner, hnone, hrow, List.count_cons, Option.toList_none, Option.toList_some,
      List.length_nil, List.length_singleton, beq_iff_eq, reduceCtorEq, ↓reduceIte] at h ⊢
    omega
  · simp only [Option.some.injEq, Prod.mk.injEq] at he
    obtain ⟨rfl, rfl⟩ := he
    obtain rfl : g' = .asking := hn
    exact h

lemma OneOwner.effect {jti : String} {s s' : Store τ} {g : Request} {rest : List Request}
    (h : OneOwner jti s (g :: rest)) {c : Cmd τ} (hc : (requestProtocol τ jti).allowed g c)
    (hfirst : ∀ j, c = .getRevoked .revokeToken j → s.revoked.find? j = none) {a : Answer}
    {r : Except ApiError (Reply c)} (he : Store.effect c a s = some (r, s')) :
    (requestProtocol τ jti).reply g c r ∧
      ∀ g', (requestProtocol τ jti).next g c r g' → OneOwner jti s' (g' :: rest) := by
  refine ⟨requestReply_of_effect hfirst he, fun g' hn => ?_⟩
  cases hreads : c.reads with
  | true =>
    rw [store_of_reads hreads he, next_of_reads hreads hn]
    exact h
  | false =>
    cases c with
    | addRevoked row =>
      cases g <;> try exact hc.elim
      obtain rfl : row.jti = jti := hc
      exact h.addRevoked he hn
    | send response =>
      cases g <;> try exact hc.elim
      cases a <;> cases he
      obtain rfl : g' = .asking := hn
      simp only [OneOwner, List.length_append, List.length_singleton, List.count_cons, beq_iff_eq,
        reduceCtorEq, ↓reduceIte] at h ⊢
      omega
    | _ => cases hreads

variable {jwt settings}

/-- In every run in which no lookup of `revoke_token` finds the row, at most one of the
requests is answered with a new pair. -/
theorem refresh_single_use {token : τ} {payload : TokenPayload} {jti : String}
    (hdecode : ∀ now p, jwt.decode token now = .ok p → p = payload)
    (hjti : payload.jti = some jti) (hne : jti ≠ "")
    {p : Pool (Cmd τ) Reply ApiError (Store τ)}
    (h : Reachable (requestSystem τ) RevokesFirst (Presented jwt settings token jti) p) :
    p.store.sent.length ≤ 1 := by
  have hrun : ∃ gs, Typed (requestProtocol τ jti) .asking gs p.threads ∧
      OneOwner jti p.store gs := h.ghost_perm ?_ ?_ ?_ ?_
  · obtain ⟨gs, -, hone⟩ := hrun
    have hrows : (p.store.revoked.find? jti).toList.length ≤ 1 := Option.length_toList_le
    unfold OneOwner at hone
    omega
  · intro s gs gs' hp hone
    unfold OneOwner at hone ⊢
    rwa [← hp.count_eq]
  · intro p hp
    refine ⟨List.replicate p.threads.length .asking, ⟨by simp, fun i g t hg ht => ?_⟩, ?_⟩
    · rw [List.eq_of_mem_replicate (List.mem_of_getElem? hg),
        hp.requests t (List.mem_of_getElem? ht)]
      exact ⟨follows_refreshRequest settings hdecode hjti hne, fun l hl => by cases hl⟩
    · simp [OneOwner, hp.unanswered, hp.unrevoked, List.count_replicate]
  · intro g c r q _ _ hq
    cases hq
  · intro p g rest i c k l a r s' _ hone ht hc hok he
    have hcall : p.call? (.run i a) = some c := Pool.call?_run ht
    refine hone.effect hc (fun j hj => ?_) he
    rw [RevokesFirst, hcall, hj] at hok
    exact hok

end runs

section schedules

/-- Tokens that are their claims. -/
def Jwt.claims : Jwt TokenPayload where
  encode := id
  decode token now :=
    match token.exp with
    | some exp => if exp ≤ now then .error .expiredSignature else .ok token
    | none => .ok token

def refreshClaims : TokenPayload :=
  { sub := some 7, role := some "USER", type := some "refresh", jti := some "a1", iat := some 0,
    exp := some 604800 }

/-- `n` requests that present the refresh token of user 7. -/
def presentedToken (n : Nat) : Pool (Cmd TokenPayload) Reply ApiError (Store TokenPayload) where
  store :=
    { users := ⟨[⟨7, "user@target.example", none, "USER", true, 0⟩], List.nodup_singleton _⟩ }
  threads := List.replicate n ⟨refreshRequest Jwt.claims {} refreshClaims, none⟩

lemma presentedToken_presented (n : Nat) :
    Presented Jwt.claims {} refreshClaims "a1" (presentedToken n) where
  requests _ ht := List.eq_of_mem_replicate ht
  unrevoked := rfl
  unanswered := rfl

lemma decode_refreshClaims (now : ℚ) (p : TokenPayload)
    (h : Jwt.claims.decode refreshClaims now = .ok p) : p = refreshClaims := by
  simp only [Jwt.claims, refreshClaims] at h
  split at h
  · cases h
  · exact (Except.ok.inj h).symm

/-- The steps of request `i` up to the lookup of `revoke_token`, and from there on. -/
def checks (i : Nat) : List (Act Answer) :=
  [.run i (.clock 60), .run i .done, .run i .done]

def issues (i : Nat) : List (Act Answer) :=
  [.run i (.clock 60), .run i (.uuid "b2"), .run i (.clock 60), .run i (.uuid "c3"), .run i .done]

/-- One request is answered before the other one looks the token up. -/
theorem refresh_single_use_serial :
    ∃ p, Reachable (requestSystem TokenPayload) RevokesFirst
        (Presented Jwt.claims {} refreshClaims "a1") p ∧
      p.store.sent ≠ [] ∧ p.store.sent.length ≤ 1 := by
  have hrun : ((presentedToken 2).runActs (requestSystem TokenPayload) RevokesFirst
      (checks 0 ++ [.run 0 .done, .run 0 .done] ++ issues 0 ++
        [.run 1 (.clock 60), .run 1 .done])).map
      (fun p => p.store.sent.length) = some 1 := by
    decide +kernel
  obtain ⟨p, hp, hlen⟩ := Reachable.of_shown (presentedToken_presented 2) hrun
  refine ⟨p, hp, fun hnil => ?_, refresh_single_use decode_refreshClaims rfl (by decide) hp⟩
  rw [hnil] at hlen
  cases hlen

/-- Both requests pass their first lookup, and the second finds the row of the first. -/
theorem refresh_answered_twice :
    ∃ p, Reachable (requestSystem TokenPayload) (fun _ _ => True)
        (Presented Jwt.claims {} refreshClaims "a1") p ∧ p.store.sent.length = 2 := by
  have hrun : ((presentedToken 2).runActs (requestSystem TokenPayload) (fun _ _ => True)
      (checks 0 ++ checks 1 ++ [.run 0 .done, .run 0 .done, .run 1 .done] ++ issues 0 ++
        issues 1)).map (fun p => p.store.sent.length) = some 2 := by
    decide +kernel
  exact Reachable.of_shown (presentedToken_presented 2) hrun

end schedules

end SecurityScanner.Auth
