import SecurityScanner.Api.TokenHistory

/-!
# The token protocol

A refresh token works once, until it expires or is given to `logout`. The `jti` of a token is
drawn by one call of the history, and the revoked ones are those of the tokens that were accepted
or logged out.
-/

namespace SecurityScanner.Auth

open Storage Interleaving

variable {τ : Type} (D : Deployment τ)

section protocol

/-- The expiry of the refresh token that a request was answered with, from the time of the third
last call of the request but one. -/
def Deployment.expiry (ev : Event τ) : ℚ :=
  (⌊D.env.clock (ev.finish - 2) + 86400 * D.settings.refreshTokenExpireDays⌋ : ℤ)

/-- The token is the refresh token of the pair that `ev` was answered with, it has not expired, no
`refresh` was answered for it, `logout` did not get it before it expired, and its user is active. -/
structure Usable (w : World τ) (events : List (Event τ)) (t : τ) (ev : Event τ)
    (pair : TokenResponse τ) : Prop where
  mem : ev ∈ events
  grants : ev.Grants pair
  token : pair.refreshToken = t
  unexpired : D.env.clock w.calls < D.expiry ev
  unused : ∀ ev' ∈ events, ev'.request = .refresh t → ∀ pair', ¬ev'.Grants pair'
  kept : ∀ ev' ∈ events, ev'.request = .logout t → D.expiry ev ≤ D.env.clock ev'.start
  active : w.store.HasActive pair.user.id

structure TokenProtocol (w : World τ) (events : List (Event τ)) : Prop where
  refresh : ∀ t, Presentable D events t →
    ((∃ pair, (D.serve (.refresh t) w).1 = .ok (some pair)) ↔ ∃ ev pair, Usable D w events t ev pair)
  access : ∀ t, IssuedAccess events t → ∀ pair, (D.serve (.refresh t) w).1 ≠ .ok (some pair)
  me : ∀ t, IssuedRefresh events t → ∀ user, (D.me t w).1 ≠ .ok user

end protocol

section requests

/-- The request revokes the `jti`: it is a `logout` with a valid token or a `refresh` that is
answered. -/
def Deployment.Revokes (ev : Event τ) (jti : String) : Prop :=
  ∃ t p, D.jwt.decode t (D.env.clock ev.start) = .ok p ∧ p.jti = some jti ∧
    (ev.request = .logout t ∨ ev.request = .refresh t ∧ ∃ pair, ev.Grants pair)

/-- What a request does. -/
structure Does (w : World τ) (ev : Event τ) (w' : World τ) : Prop where
  calls : w.calls ≤ w'.calls
  pair : ∀ pair, ev.Grants pair → ∃ n user, w.calls ≤ n ∧ w'.calls = n + 4 ∧
    PairAt D.jwt D.settings D.env n user pair
  revoked : ∀ j, (w'.store.revoked.find? j).isSome ↔
    (w.store.revoked.find? j).isSome ∨ D.Revokes ev j

/-- The tokens that a request presents have complete payloads. -/
def Deployment.Readable (w : World τ) (t : τ) : Prop :=
  ∀ p, D.jwt.decode t (D.env.clock w.calls) = .ok p → ∃ sub jti, p.Complete sub jti

variable {D}

lemma does_signsIn {request : AccountRequest τ} {w : World τ} {p : AccountHandler τ (TokenResponse τ)}
    (hroute : D.route request = some <$> p)
    (hrefresh : ∀ t, request ≠ .refresh t) (hlogout : ∀ t, request ≠ .logout t)
    (h : SignsIn D.jwt D.settings D.env w (p.run D.env.handle w)) :
    Does D w (D.event request w) (D.serve request w).2 := by
  have hserve : D.serve request w =
      ((p.run D.env.handle w).1.map some, (p.run D.env.handle w).2) := by
    unfold Deployment.serve
    rw [hroute, Prog.run_map]
  refine ⟨?_, ?_, ?_⟩
  · rw [hserve]
    exact h.calls
  · intro pair hpair
    unfold Event.Grants Deployment.event at hpair
    dsimp only at hpair
    rw [hserve] at hpair ⊢
    cases hdone : (p.run D.env.handle w).1 with
    | error e =>
      rw [hdone] at hpair
      cases hpair
    | ok pair' =>
      rw [hdone] at hpair
      obtain rfl := Option.some.inj (Except.ok.inj hpair)
      exact h.pair pair' hdone
  · intro j
    rw [hserve, h.revoked]
    constructor
    · exact Or.inl
    · rintro (hj | ⟨t, p, -, -, hrequest | ⟨hrequest, -⟩⟩)
      · exact hj
      · exact absurd hrequest (hlogout t)
      · exact absurd hrequest (hrefresh t)

lemma serve_refresh (t : τ) (w : World τ) :
    D.serve (.refresh t) w =
      (((refresh D.jwt D.settings t).run D.env.tokenHandle w).1.map some,
        ((refresh D.jwt D.settings t).run D.env.tokenHandle w).2) := by
  unfold Deployment.serve Deployment.route
  dsimp only
  rw [Prog.run_map, run_onTokens]

lemma serve_logout (t : τ) (w : World τ) :
    D.serve (.logout t) w =
      (((logout D.jwt t).run D.env.tokenHandle w).1.map fun _ => none,
        ((logout D.jwt t).run D.env.tokenHandle w).2) := by
  unfold Deployment.serve Deployment.route
  dsimp only
  rw [Prog.run_map, run_onTokens]

lemma revokes_refresh {t : τ} {w : World τ} {j : String} :
    D.Revokes (D.event (.refresh t) w) j ↔
      (∃ p, D.jwt.decode t (D.env.clock w.calls) = .ok p ∧ p.jti = some j) ∧
        ∃ pair, (D.event (.refresh t) w).Grants pair := by
  constructor
  · rintro ⟨t', p, hdecode, hjti, hrequest | ⟨hrequest, hpair⟩⟩
    · cases hrequest
    · obtain rfl := AccountRequest.refresh.inj hrequest
      exact ⟨⟨p, hdecode, hjti⟩, hpair⟩
  · rintro ⟨⟨p, hdecode, hjti⟩, hpair⟩
    exact ⟨t, p, hdecode, hjti, Or.inr ⟨rfl, hpair⟩⟩

lemma revokes_logout {t : τ} {w : World τ} {j : String} :
    D.Revokes (D.event (.logout t) w) j ↔
      ∃ p, D.jwt.decode t (D.env.clock w.calls) = .ok p ∧ p.jti = some j := by
  constructor
  · rintro ⟨t', p, hdecode, hjti, hrequest | ⟨hrequest, -⟩⟩
    · obtain rfl := AccountRequest.logout.inj hrequest
      exact ⟨p, hdecode, hjti⟩
    · cases hrequest
  · rintro ⟨p, hdecode, hjti⟩
    exact ⟨t, p, hdecode, hjti, Or.inl rfl⟩

lemma TokenPayload.Complete.jti_iff {p : TokenPayload} {sub : UserId} {jti j : String}
    (h : p.Complete sub jti) : p.jti = some j ↔ j = jti := by
  rw [h.jti_eq, Option.some_inj]
  exact eq_comm

lemma does_refresh {t : τ} {w : World τ} (hread : D.Readable w t) :
    Does D w (D.event (.refresh t) w) (D.serve (.refresh t) w).2 := by
  by_cases htakes : ∃ p sub jti, Takes D.jwt D.env t w p sub jti
  · obtain ⟨p, sub, jti, h⟩ := htakes
    obtain ⟨w', user, hrevoking, hrun⟩ := run_refresh_accepted D.settings h
    have hserve := serve_refresh (D := D) t w
    rw [hrun] at hserve
    have hgrants : ∀ pair, (D.event (.refresh t) w).Grants pair ↔
        (D.serve (.refresh t) w).1 = .ok (some pair) := fun pair => Iff.rfl
    refine ⟨?_, ?_, ?_⟩
    · rw [hserve]
      exact hrevoking.calls.trans (Nat.le_add_right _ 4)
    · intro pair hpair
      rw [hgrants, hserve] at hpair
      obtain rfl := Option.some.inj (Except.ok.inj hpair)
      rw [hserve]
      exact ⟨w'.calls, user, hrevoking.calls, rfl, rfl, rfl, rfl⟩
    · intro j
      rw [revokes_refresh, hserve]
      simp only [hgrants, hserve, h.decode]
      refine (hrevoking.revoked j).trans (or_congr Iff.rfl ?_)
      rw [← h.complete.jti_iff]
      simp [Except.map]
  · obtain ⟨e, n, hrun⟩ := run_refresh_refused D.settings hread
      fun p sub jti h => htakes ⟨p, sub, jti, h⟩
    have hserve := serve_refresh (D := D) t w
    rw [hrun] at hserve
    have hgrants : ∀ pair, ¬(D.event (.refresh t) w).Grants pair := by
      intro pair hpair
      unfold Event.Grants Deployment.event at hpair
      rw [hserve] at hpair
      cases hpair
    refine ⟨?_, fun pair hpair => absurd hpair (hgrants pair), ?_⟩
    · rw [hserve]
      exact Nat.le_add_right _ n
    · intro j
      rw [revokes_refresh, hserve]
      simp [hgrants, World.skip]

lemma does_logout {t : τ} {w : World τ} (hread : D.Readable w t) :
    Does D w (D.event (.logout t) w) (D.serve (.logout t) w).2 := by
  have hserve := serve_logout (D := D) t w
  have hgrants : ∀ pair, ¬(D.event (.logout t) w).Grants pair := by
    intro pair hpair
    unfold Event.Grants Deployment.event at hpair
    rw [hserve] at hpair
    generalize ((logout D.jwt t).run D.env.tokenHandle w).1 = r at hpair
    cases r <;> cases hpair
  cases hdecode : D.jwt.decode t (D.env.clock w.calls) with
  | error e =>
    rw [run_logout_invalid hdecode] at hserve
    refine ⟨?_, fun pair hpair => absurd hpair (hgrants pair), ?_⟩
    · rw [hserve]
      exact Nat.le_succ _
    · intro j
      rw [revokes_logout, hserve]
      simp [hdecode, World.skip]
  | ok p =>
    obtain ⟨sub, jti, hp⟩ := hread p hdecode
    obtain ⟨w', hrevoking, hrun⟩ := run_logout_valid hdecode hp
    rw [hrun] at hserve
    refine ⟨?_, fun pair hpair => absurd hpair (hgrants pair), ?_⟩
    · rw [hserve]
      exact hrevoking.calls
    · intro j
      rw [revokes_logout, hserve, hdecode]
      refine (hrevoking.revoked j).trans (or_congr Iff.rfl ?_)
      rw [← hp.jti_iff]
      simp

/-- A `refresh` that is answered has taken its token. -/
lemma takes_of_grants {t : τ} {w : World τ} (hread : D.Readable w t) {pair : TokenResponse τ}
    (h : (D.serve (.refresh t) w).1 = .ok (some pair)) :
    ∃ p sub jti, Takes D.jwt D.env t w p sub jti := by
  by_contra hnot
  obtain ⟨e, n, hrun⟩ := run_refresh_refused D.settings hread
    fun p sub jti htakes => hnot ⟨p, sub, jti, htakes⟩
  rw [serve_refresh, hrun] at h
  cases h

/-- What the requests of a history do. -/
lemma does_serve {request : AccountRequest τ} {w : World τ}
    (hread : ∀ t, request = .refresh t ∨ request = .logout t → D.Readable w t) :
    Does D w (D.event request w) (D.serve request w).2 := by
  cases request with
  | register req =>
    exact does_signsIn rfl (fun t h => nomatch h) (fun t h => nomatch h) (signsIn_register req w)
  | login req =>
    exact does_signsIn rfl (fun t h => nomatch h) (fun t h => nomatch h) (signsIn_login _ req w)
  | refresh t => exact does_refresh (hread t (Or.inl rfl))
  | logout t => exact does_logout (hread t (Or.inr rfl))

end requests

section tokens

/-- The token number `n` of a history: the claims of an access token are drawn four calls before
the end of its request, those of a refresh token two calls before. -/
inductive Minted (events : List (Event τ)) : String → Nat → τ → Prop
  | access {ev : Event τ} {pair : TokenResponse τ} {n : Nat} {user : User} :
      ev ∈ events → ev.Grants pair → ev.start ≤ n → ev.finish = n + 4 →
      PairAt D.jwt D.settings D.env n user pair → Minted events "access" n pair.accessToken
  | refresh {ev : Event τ} {pair : TokenResponse τ} {n : Nat} {user : User} :
      ev ∈ events → ev.Grants pair → ev.start ≤ n → ev.finish = n + 4 →
      PairAt D.jwt D.settings D.env n user pair → Minted events "refresh" (n + 2) pair.refreshToken

/-- What holds after every history. -/
structure Inv (init : AccountStore τ) (w : World τ) (events : List (Event τ)) : Prop where
  past : ∀ ev ∈ events, ev.finish ≤ w.calls
  apart : events.Pairwise fun ev ev' => ev.finish ≤ ev'.start
  pair : ∀ ev ∈ events, ∀ pair, ev.Grants pair →
    ∃ n user, ev.start ≤ n ∧ ev.finish = n + 4 ∧ PairAt D.jwt D.settings D.env n user pair
  presented : ∀ ev ∈ events, ∀ t, ev.request = .refresh t ∨ ev.request = .logout t →
    (∃ type n, Minted D events type n t ∧ n < ev.start) ∨ ∀ now, ∃ e, D.jwt.decode t now = .error e
  answered : ∀ ev ∈ events, ∀ t, ev.request = .refresh t → ∀ pair, ev.Grants pair →
    ∃ p, D.jwt.decode t (D.env.clock ev.start) = .ok p
  revoked : ∀ j, (w.store.revoked.find? j).isSome ↔
    (init.revoked.find? j).isSome ∨ ∃ ev ∈ events, D.Revokes ev j

variable {D} {init : AccountStore τ} {w : World τ} {events : List (Event τ)}

lemma Minted.mono {events' : List (Event τ)} (hsub : events ⊆ events') {type : String} {n : Nat}
    {t : τ} (h : Minted D events type n t) : Minted D events' type n t := by
  cases h with
  | access hev hpair hstart hfinish hat => exact Minted.access (hsub hev) hpair hstart hfinish hat
  | refresh hev hpair hstart hfinish hat => exact Minted.refresh (hsub hev) hpair hstart hfinish hat

lemma Minted.past (hinv : Inv D init w events) {type : String} {n : Nat} {t : τ}
    (h : Minted D events type n t) : n < w.calls := by
  cases h with
  | access hev _ _ hfinish _ =>
    have hpast := hinv.past _ hev
    omega
  | refresh hev _ _ hfinish _ =>
    have hpast := hinv.past _ hev
    omega

lemma Minted.claims {type : String} {n : Nat} {t : τ} (h : Minted D events type n t) :
    ∃ sub role delta, t = D.jwt.encode (D.env.claims n sub role type delta) := by
  cases h with
  | access _ _ _ _ hat => exact ⟨_, _, _, hat.access⟩
  | refresh _ _ _ _ hat => exact ⟨_, _, _, hat.refresh⟩

/-- Requests do not overlap. -/
lemma Inv.disjoint (hinv : Inv D init w events) {ev ev' : Event τ} (hev : ev ∈ events)
    (hev' : ev' ∈ events) : ev = ev' ∨ ev.finish ≤ ev'.start ∨ ev'.finish ≤ ev.start := by
  obtain ⟨i, hi, rfl⟩ := List.mem_iff_getElem.mp hev
  obtain ⟨j, hj, rfl⟩ := List.mem_iff_getElem.mp hev'
  have happart := List.pairwise_iff_getElem.mp hinv.apart
  rcases Nat.lt_trichotomy i j with hij | rfl | hij
  · exact Or.inr (Or.inl (happart i j hi hj hij))
  · exact Or.inl rfl
  · exact Or.inr (Or.inr (happart j i hj hi hij))

/-- A number belongs to one token. -/
lemma Minted.unique (hinv : Inv D init w events) {type type' : String} {n n' : Nat} {t t' : τ}
    (h : Minted D events type n t) (h' : Minted D events type' n' t') (hn : n = n') :
    t = t' ∧ type = type' := by
  cases h with
  | access hev hpair hstart hfinish _ =>
    cases h' with
    | access hev' hpair' hstart' hfinish' _ =>
      rcases hinv.disjoint hev hev' with rfl | hlt | hlt
      · obtain rfl := Option.some.inj (Except.ok.inj (hpair.symm.trans hpair'))
        exact ⟨rfl, rfl⟩
      · omega
      · omega
    | refresh hev' hpair' hstart' hfinish' _ =>
      rcases hinv.disjoint hev hev' with rfl | hlt | hlt <;> omega
  | refresh hev hpair hstart hfinish _ =>
    cases h' with
    | access hev' hpair' hstart' hfinish' _ =>
      rcases hinv.disjoint hev hev' with rfl | hlt | hlt <;> omega
    | refresh hev' hpair' hstart' hfinish' _ =>
      rcases hinv.disjoint hev hev' with rfl | hlt | hlt
      · obtain rfl := Option.some.inj (Except.ok.inj (hpair.symm.trans hpair'))
        exact ⟨rfl, rfl⟩
      · omega
      · omega

end tokens

section decoding

variable {D} {init : AccountStore τ} {w : World τ} {events : List (Event τ)}
  (hjwt : D.jwt.Lawful) (horder : D.env.Orderly init)

include hjwt horder

/-- A token that is presented after it was created. -/
lemma decode_claims {n k : Nat} (hk : n ≤ k) (sub : UserId) (role type : String) (delta : ℚ) :
    D.jwt.decode (D.jwt.encode (D.env.claims n sub role type delta)) (D.env.clock k) =
      if (⌊D.env.clock n + delta⌋ : ℚ) ≤ D.env.clock k then .error .expiredSignature
      else .ok
        { sub := some sub
          role := some role
          type := some type
          jti := some (D.env.uuid (n + 1))
          iat := some (⌊D.env.clock n⌋ : ℚ)
          exp := some (⌊D.env.clock n + delta⌋ : ℚ) } := by
  have hiat : (⌊D.env.clock n⌋ : ℚ) ≤ D.env.clock k := (Int.floor_le _).trans (horder.clock hk)
  exact hjwt sub role type (D.env.uuid (n + 1)) (D.env.clock n) (D.env.clock n + delta)
    (D.env.clock k) hiat

/-- What `decode` makes of a token of the history. -/
lemma Minted.decode {type : String} {n k : Nat} {t : τ} (h : Minted D events type n t) (hk : n ≤ k)
    {p : TokenPayload} (hdecode : D.jwt.decode t (D.env.clock k) = .ok p) :
    p.type = some type ∧ ∃ sub, p.Complete sub (D.env.uuid (n + 1)) := by
  obtain ⟨sub, role, delta, rfl⟩ := h.claims
  rw [decode_claims hjwt horder hk] at hdecode
  split_ifs at hdecode
  obtain rfl := Except.ok.inj hdecode
  exact ⟨rfl, sub, rfl, rfl, horder.uuid_ne (n + 1)⟩

omit horder hjwt in
lemma IssuedAccess.minted (hinv : Inv D init w events) {t : τ} (h : IssuedAccess events t) :
    ∃ n, Minted D events "access" n t := by
  obtain ⟨ev, hev, pair, hgrants, rfl⟩ := h
  obtain ⟨n, user, hstart, hfinish, hat⟩ := hinv.pair ev hev pair hgrants
  exact ⟨n, Minted.access hev hgrants hstart hfinish hat⟩

omit horder hjwt in
lemma IssuedRefresh.minted (hinv : Inv D init w events) {t : τ} (h : IssuedRefresh events t) :
    ∃ n, Minted D events "refresh" n t := by
  obtain ⟨ev, hev, pair, hgrants, rfl⟩ := h
  obtain ⟨n, user, hstart, hfinish, hat⟩ := hinv.pair ev hev pair hgrants
  exact ⟨n + 2, Minted.refresh hev hgrants hstart hfinish hat⟩

omit horder hjwt in
/-- A token that can be presented is one of the history, or none at all. -/
lemma Presentable.minted (hinv : Inv D init w events) {t : τ} (h : Presentable D events t) :
    (∃ type n, Minted D events type n t ∧ n < w.calls) ∨
      ∀ now, ∃ e, D.jwt.decode t now = .error e := by
  rcases h with h | h | h
  · obtain ⟨n, hn⟩ := h.minted hinv
    exact Or.inl ⟨_, n, hn, hn.past hinv⟩
  · obtain ⟨n, hn⟩ := h.minted hinv
    exact Or.inl ⟨_, n, hn, hn.past hinv⟩
  · exact Or.inr h

lemma Presentable.readable (hinv : Inv D init w events) {t : τ} (h : Presentable D events t) :
    D.Readable w t := by
  intro p hdecode
  rcases h.minted hinv with ⟨type, n, hminted, hn⟩ | hforged
  · obtain ⟨-, sub, hp⟩ := hminted.decode hjwt horder hn.le hdecode
    exact ⟨sub, _, hp⟩
  · obtain ⟨e, he⟩ := hforged (D.env.clock w.calls)
    rw [he] at hdecode
    cases hdecode

lemma Inv.serve (hinv : Inv D init w events) {request : AccountRequest τ}
    (hpresents : request.Presents D events) :
    Inv D init (D.serve request w).2 (events ++ [D.event request w]) := by
  have hpresentable : ∀ t, request = .refresh t ∨ request = .logout t → Presentable D events t := by
    rintro t (rfl | rfl)
    · exact hpresents
    · exact hpresents
  have hread : ∀ t, request = .refresh t ∨ request = .logout t → D.Readable w t :=
    fun t ht => (hpresentable t ht).readable hjwt horder hinv
  have hdoes := does_serve hread
  have hsub : events ⊆ events ++ [D.event request w] := List.subset_append_left _ _
  refine ⟨?_, ?_, ?_, ?_, ?_, ?_⟩
  · intro ev hev
    rcases List.mem_append.mp hev with hev | hev
    · exact (hinv.past ev hev).trans hdoes.calls
    · rw [List.mem_singleton.mp hev]
      exact Nat.le_refl _
  · rw [List.pairwise_append]
    refine ⟨hinv.apart, List.pairwise_singleton _ _, fun ev hev ev' hev' => ?_⟩
    rw [List.mem_singleton.mp hev']
    exact hinv.past ev hev
  · intro ev hev pair hgrants
    rcases List.mem_append.mp hev with hev | hev
    · exact hinv.pair ev hev pair hgrants
    · obtain rfl := List.mem_singleton.mp hev
      exact hdoes.pair pair hgrants
  · intro ev hev t ht
    rcases List.mem_append.mp hev with hev | hev
    · rcases hinv.presented ev hev t ht with ⟨type, n, hminted, hn⟩ | hforged
      · exact Or.inl ⟨type, n, hminted.mono hsub, hn⟩
      · exact Or.inr hforged
    · obtain rfl := List.mem_singleton.mp hev
      rcases (hpresentable t ht).minted hinv with ⟨type, n, hminted, hn⟩ | hforged
      · exact Or.inl ⟨type, n, hminted.mono hsub, hn⟩
      · exact Or.inr hforged
  · intro ev hev t ht pair hgrants
    rcases List.mem_append.mp hev with hev | hev
    · exact hinv.answered ev hev t ht pair hgrants
    · obtain rfl := List.mem_singleton.mp hev
      obtain rfl : request = .refresh t := ht
      obtain ⟨p, sub, jti, htakes⟩ := takes_of_grants (hread t (Or.inl rfl)) hgrants
      exact ⟨p, htakes.decode⟩
  · intro j
    rw [hdoes.revoked, hinv.revoked, or_assoc]
    apply or_congr Iff.rfl
    simp [or_and_right, exists_or]

theorem inv_history (h : History D init w events) : Inv D init w events := by
  induction h with
  | start =>
    refine ⟨by simp, List.Pairwise.nil, by simp, by simp, by simp, fun j => ?_⟩
    simp
  | serve request _ hpresents ih => exact ih.serve hjwt horder hpresents
  | wait n _ ih =>
    exact ⟨fun ev hev => (ih.past ev hev).trans (Nat.le_add_right _ n), ih.apart, ih.pair,
      ih.presented, ih.answered, ih.revoked⟩

/-- What `decode` makes of a refresh token after the request that was answered with it. -/
lemma decode_refresh (hinv : Inv D init w events) {ev : Event τ} {pair : TokenResponse τ}
    (hev : ev ∈ events) (hgrants : ev.Grants pair) {k : Nat} (hk : ev.finish ≤ k + 2) :
    (D.expiry ev ≤ D.env.clock k ∧
        D.jwt.decode pair.refreshToken (D.env.clock k) = .error .expiredSignature) ∨
      (D.env.clock k < D.expiry ev ∧ ∃ p, D.jwt.decode pair.refreshToken (D.env.clock k) = .ok p ∧
        p.type = some "refresh" ∧ p.Complete pair.user.id (D.env.uuid (ev.finish - 1))) := by
  obtain ⟨n, user, hstart, hfinish, hat⟩ := hinv.pair ev hev pair hgrants
  have hthird : ev.finish - 2 = n + 2 := by omega
  have hlast : ev.finish - 1 = n + 2 + 1 := by omega
  have hexpiry : D.expiry ev =
      (⌊D.env.clock (n + 2) + 86400 * D.settings.refreshTokenExpireDays⌋ : ℚ) := by
    unfold Deployment.expiry
    rw [hthird]
  rw [hat.refresh, decode_claims hjwt horder (by omega), hexpiry, hlast, hat.user_eq]
  by_cases hexpired : (⌊D.env.clock (n + 2) + 86400 * D.settings.refreshTokenExpireDays⌋ : ℚ) ≤
      D.env.clock k
  · rw [if_pos hexpired]
    exact Or.inl ⟨hexpired, rfl⟩
  · rw [if_neg hexpired]
    exact Or.inr ⟨lt_of_not_ge hexpired, _, rfl, rfl, rfl, rfl, horder.uuid_ne _⟩

/-- A refresh token that is valid now has been presented after it was issued only. -/
lemma presented_after (hinv : Inv D init w events) {ev ev' : Event τ} {pair : TokenResponse τ}
    (hev : ev ∈ events) (hgrants : ev.Grants pair) {p : TokenPayload}
    (hdecode : D.jwt.decode pair.refreshToken (D.env.clock w.calls) = .ok p) (hev' : ev' ∈ events)
    (ht : ev'.request = .refresh pair.refreshToken ∨ ev'.request = .logout pair.refreshToken) :
    ev.finish ≤ ev'.start + 2 := by
  obtain ⟨n, user, hstart, hfinish, hat⟩ := hinv.pair ev hev pair hgrants
  have hminted := Minted.refresh hev hgrants hstart hfinish hat
  rcases hinv.presented ev' hev' _ ht with ⟨type, n', hminted', hn'⟩ | hforged
  · obtain ⟨-, sub, hp⟩ := hminted.decode hjwt horder (hminted.past hinv).le hdecode
    obtain ⟨-, sub', hp'⟩ := hminted'.decode hjwt horder (hminted'.past hinv).le hdecode
    have huuid := Option.some.inj (hp.jti_eq.symm.trans hp'.jti_eq)
    have hnumber := horder.uuid huuid
    omega
  · obtain ⟨e, he⟩ := hforged (D.env.clock w.calls)
    rw [he] at hdecode
    cases hdecode

/-- A token whose `jti` was revoked by a request of the history is the one it presented. -/
lemma revokes_token (hinv : Inv D init w events) {ev ev' : Event τ} {pair : TokenResponse τ}
    (hev : ev ∈ events) (hgrants : ev.Grants pair) (hev' : ev' ∈ events)
    (hrevokes : D.Revokes ev' (D.env.uuid (ev.finish - 1))) :
    ev.finish ≤ ev'.start + 2 ∧
      (∃ p, D.jwt.decode pair.refreshToken (D.env.clock ev'.start) = .ok p) ∧
      (ev'.request = .logout pair.refreshToken ∨
        ev'.request = .refresh pair.refreshToken ∧ ∃ pair', ev'.Grants pair') := by
  obtain ⟨n, user, hstart, hfinish, hat⟩ := hinv.pair ev hev pair hgrants
  have hminted := Minted.refresh hev hgrants hstart hfinish hat
  obtain ⟨t, p, hdecode, hjti, hrequest⟩ := hrevokes
  have ht : ev'.request = .refresh t ∨ ev'.request = .logout t :=
    hrequest.symm.imp_left And.left
  rcases hinv.presented ev' hev' t ht with ⟨type, n', hminted', hn'⟩ | hforged
  · obtain ⟨-, sub, hp⟩ := hminted'.decode hjwt horder hn'.le hdecode
    have huuid := Option.some.inj (hp.jti_eq.symm.trans hjti)
    have hnumber := horder.uuid huuid
    obtain ⟨rfl, -⟩ := hminted'.unique hinv hminted (by omega)
    exact ⟨by omega, ⟨p, hdecode⟩, hrequest⟩
  · obtain ⟨e, he⟩ := hforged (D.env.clock ev'.start)
    rw [he] at hdecode
    cases hdecode

end decoding

section results

variable {D} {init : AccountStore τ} {w : World τ} {events : List (Event τ)}
  (hjwt : D.jwt.Lawful) (horder : D.env.Orderly init)

include hjwt horder

/-- A token that is taken is usable. -/
lemma usable_of_takes (hinv : Inv D init w events) {ev : Event τ} {pair : TokenResponse τ}
    (hev : ev ∈ events) (hgrants : ev.Grants pair) {p : TokenPayload} {sub : UserId} {jti : String}
    (h : Takes D.jwt D.env pair.refreshToken w p sub jti) :
    Usable D w events pair.refreshToken ev pair := by
  have hpast : ev.finish ≤ w.calls + 2 := (hinv.past ev hev).trans (Nat.le_add_right _ 2)
  rcases decode_refresh hjwt horder hinv hev hgrants hpast with ⟨-, herror⟩ | ⟨hlt, p', hp', -, hc⟩
  · rw [h.decode] at herror
    cases herror
  · obtain rfl := Except.ok.inj (h.decode.symm.trans hp')
    obtain rfl := Option.some.inj (h.complete.jti_eq.symm.trans hc.jti_eq)
    obtain rfl := Option.some.inj (h.complete.sub_eq.symm.trans hc.sub_eq)
    have hkept : ∀ ev' ∈ events, ¬D.Revokes ev' (D.env.uuid (ev.finish - 1)) := by
      intro ev' hev' hrevokes
      have hsome := (hinv.revoked _).mpr (Or.inr ⟨ev', hev', hrevokes⟩)
      rw [h.kept] at hsome
      cases hsome
    -- a valid token given to `refresh` or `logout` would be revoked
    have hvalid : ∀ ev' ∈ events, D.env.clock ev'.start < D.expiry ev →
        (ev'.request = .logout pair.refreshToken ∨
          ev'.request = .refresh pair.refreshToken ∧ ∃ pair', ev'.Grants pair') → False := by
      intro ev' hev' hunexpired hrequest
      have hafter := presented_after hjwt horder hinv hev hgrants hp' hev'
        (hrequest.symm.imp_left And.left)
      rcases decode_refresh hjwt horder hinv hev hgrants hafter with ⟨hle, -⟩ | ⟨-, q, hq, -, hcq⟩
      · exact absurd hle (not_le_of_gt hunexpired)
      · exact hkept ev' hev' ⟨_, q, hq, hcq.jti_eq, hrequest⟩
    refine ⟨hev, hgrants, rfl, hlt, ?_, ?_, h.active⟩
    · intro ev' hev' hrequest pair' hgrants'
      obtain ⟨q, hq⟩ := hinv.answered ev' hev' _ hrequest pair' hgrants'
      have hafter := presented_after hjwt horder hinv hev hgrants hp' hev' (Or.inl hrequest)
      rcases decode_refresh hjwt horder hinv hev hgrants hafter with ⟨-, herror⟩ | ⟨hunexpired, -⟩
      · rw [hq] at herror
        cases herror
      · exact hvalid ev' hev' hunexpired (Or.inr ⟨hrequest, pair', hgrants'⟩)
    · intro ev' hev' hrequest
      by_contra hnot
      exact hvalid ev' hev' (lt_of_not_ge hnot) (Or.inl hrequest)

/-- A usable token is taken. -/
lemma takes_of_usable (hinv : Inv D init w events) {t : τ} {ev : Event τ} {pair : TokenResponse τ}
    (h : Usable D w events t ev pair) :
    ∃ p, Takes D.jwt D.env t w p pair.user.id (D.env.uuid (ev.finish - 1)) := by
  obtain ⟨hev, hgrants, rfl, hlt, hunused, hkept, hactive⟩ := h
  have hpast : ev.finish ≤ w.calls + 2 := (hinv.past ev hev).trans (Nat.le_add_right _ 2)
  rcases decode_refresh hjwt horder hinv hev hgrants hpast with ⟨hle, -⟩ | ⟨-, p, hp, htype, hc⟩
  · exact absurd hle (not_le_of_gt hlt)
  · refine ⟨p, hp, hc, htype, ?_, hactive⟩
    rw [Option.eq_none_iff_forall_ne_some]
    intro row hrow
    have hsome : (w.store.revoked.find? (D.env.uuid (ev.finish - 1))).isSome := by
      rw [hrow]
      rfl
    rw [hinv.revoked, horder.uuid_new] at hsome
    rcases hsome with hnone | ⟨ev', hev', hrevokes⟩
    · cases hnone
    · obtain ⟨hafter, ⟨q, hq⟩, hrequest⟩ := revokes_token hjwt horder hinv hev hgrants hev' hrevokes
      rcases hrequest with hlogout | ⟨hrefresh, pair', hgrants'⟩
      · rcases decode_refresh hjwt horder hinv hev hgrants hafter with ⟨-, herror⟩ | ⟨hunexpired, -⟩
        · rw [hq] at herror
          cases herror
        · exact absurd (hkept ev' hev' hlogout) (not_le_of_gt hunexpired)
      · exact hunused ev' hev' hrefresh pair' hgrants'

/-- After every history a refresh token is accepted exactly when it is usable, and tokens are
accepted as what they are only. -/
theorem token_protocol (h : History D init w events) : TokenProtocol D w events := by
  have hinv := inv_history hjwt horder h
  have haccess : ∀ t, IssuedAccess events t → ∀ pair,
      (D.serve (.refresh t) w).1 ≠ .ok (some pair) := by
    intro t ht pair hpair
    obtain ⟨n, hminted⟩ := ht.minted hinv
    have hread := Presentable.readable hjwt horder hinv (Or.inl ht)
    obtain ⟨p, sub, jti, htakes⟩ := takes_of_grants hread hpair
    obtain ⟨htype, -⟩ := hminted.decode hjwt horder (hminted.past hinv).le htakes.decode
    rw [htakes.type_eq] at htype
    exact absurd htype (by decide)
  refine ⟨fun t ht => ⟨?_, ?_⟩, haccess, ?_⟩
  · rintro ⟨pair', hpair'⟩
    obtain ⟨p, sub, jti, htakes⟩ :=
      takes_of_grants (ht.readable hjwt horder hinv) hpair'
    rcases ht with ht | ⟨ev, hev, pair, hgrants, rfl⟩ | hforged
    · exact absurd hpair' (haccess t ht pair')
    · exact ⟨ev, pair, usable_of_takes hjwt horder hinv hev hgrants htakes⟩
    · obtain ⟨e, he⟩ := hforged (D.env.clock w.calls)
      rw [htakes.decode] at he
      cases he
  · rintro ⟨ev, pair, husable⟩
    obtain ⟨p, htakes⟩ := takes_of_usable hjwt horder hinv husable
    obtain ⟨w', user, -, hrun⟩ := run_refresh_accepted D.settings htakes
    rw [serve_refresh, hrun]
    exact ⟨_, rfl⟩
  · intro t ht user huser
    obtain ⟨n, hminted⟩ := ht.minted hinv
    have hme : ∃ e, (D.me t w).1 = .error e := by
      unfold Deployment.me
      rw [run_onTokens]
      apply run_getCurrentUser_type
      intro p hdecode htype
      obtain ⟨hrefresh, -⟩ := hminted.decode hjwt horder (hminted.past hinv).le hdecode
      rw [htype] at hrefresh
      exact absurd hrefresh (by decide)
    obtain ⟨e, he⟩ := hme
    rw [he] at huser
    cases huser

end results

section witness

/-- Tokens that are their claims, with times in whole seconds. -/
def Jwt.wholeSeconds : Jwt TokenPayload where
  encode p := { p with
    iat := p.iat.map fun t => (⌊t⌋ : ℚ)
    exp := p.exp.map fun t => (⌊t⌋ : ℚ) }
  decode token now :=
    if token.iat.any (now < ·) then .error .invalid
    else if token.exp.any (· ≤ now) then .error .expiredSignature
    else .ok token

lemma wholeSeconds_lawful : Jwt.wholeSeconds.Lawful := by
  intro sub role type jti iat exp now hiat
  unfold Jwt.wholeSeconds
  have hfuture : ¬now < (⌊iat⌋ : ℚ) := not_lt_of_ge hiat
  by_cases hexp : (⌊exp⌋ : ℚ) ≤ now
  · simp [hfuture, hexp]
  · simp [hfuture, hexp]

/-- A call every second. -/
def secondsEnv : Env where
  clock n := n
  uuid n := String.ofList (List.replicate (n + 1) 'a')
  salt _ := ""
  newId n := n

lemma secondsEnv_orderly : secondsEnv.Orderly (τ := TokenPayload) {} where
  clock _ _ h := Nat.cast_le.mpr h
  uuid n m h := by
    have hlen := congrArg String.length h
    simpa [secondsEnv] using hlen
  uuid_ne n h := by
    have hlen := congrArg String.length h
    simp [secondsEnv] at hlen
  uuid_new _ := rfl

def secondsDeployment : Deployment TokenPayload where
  jwt := Jwt.wholeSeconds
  settings := {}
  passwords := ⟨fun password salt => password ++ salt, fun password stored => password = stored⟩
  interpreter := Python.ascii
  env := secondsEnv

def firstRequest : AccountRequest TokenPayload :=
  .register { email := "user@target.example", password := "correct horse" }

/-- The first account is registered, and gets a refresh token. -/
def firstEvent : Event TokenPayload := secondsDeployment.event firstRequest ⟨{}, 0⟩

def firstToken : TokenPayload :=
  Jwt.wholeSeconds.encode (secondsEnv.claims 8 3 "admin" "refresh" (86400 * 7))

def firstWorld : World TokenPayload := (secondsDeployment.serve firstRequest ⟨{}, 0⟩).2

lemma firstToken_issued : IssuedRefresh [firstEvent] firstToken :=
  ⟨firstEvent, List.mem_singleton_self _, _, rfl, rfl⟩

/-- After the first account is registered and its refresh token is used. -/
theorem token_protocol_registered :
    TokenProtocol secondsDeployment (secondsDeployment.serve (.refresh firstToken) firstWorld).2
      [firstEvent, secondsDeployment.event (.refresh firstToken) firstWorld] :=
  token_protocol wholeSeconds_lawful secondsEnv_orderly
    (History.serve (.refresh firstToken) (History.serve firstRequest History.start trivial)
      (Or.inr (Or.inl firstToken_issued)))

end witness

end SecurityScanner.Auth
