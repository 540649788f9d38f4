import Arbys.Lib.Runs
import Mathlib.Data.Rat.Defs
import Mathlib.Tactic

/-!
# The door

`backend/access.py`, which every route depends on, behind `_StripApiPrefix` of
`backend/app.py`. A request is let in if it carries an assertion that verifies
under a key the team publishes; the keys are cached for an hour, and fetched
again at once when an assertion names one that is not among them. What reads
and verifies a token is `JwtLib`; `attempts` counts the fetches that were tried,
and `log` keeps every set of keys that one of them brought.
-/

universe u

namespace Arbys

/-- `EXEMPT_PATHS`. -/
def exemptPaths : List String := ["/health"]

/-- `_JWKS_TTL_S`. -/
def jwksTtlS : ℚ := 3600

/-- `_StripApiPrefix`, of a path. -/
def stripApiPrefix (path : String) : String :=
  match path.toList with
  | '/' :: 'a' :: 'p' :: 'i' :: rest =>
      match rest with
      | [] => "/"
      | '/' :: _ => String.ofList rest
      | _ => path
  | _ => path

/-- The health check is exempt under both of its paths, and nothing else is. -/
theorem exempt_iff (path : String) :
    stripApiPrefix path ∈ exemptPaths ↔ path = "/health" ∨ path = "/api/health" := by
  have hback : String.ofList path.toList = path := String.ofList_toList
  unfold stripApiPrefix exemptPaths
  rw [List.mem_singleton]
  -- a path is stripped only when a slash follows the prefix
  split
  · rename_i rest hpath
    have hapi : path = String.ofList ('/' :: 'a' :: 'p' :: 'i' :: rest) := by rw [← hpath, hback]
    have hne : path ≠ "/health" := by
      rw [hapi]
      intro h
      have hlist := congrArg String.toList h
      simp at hlist
    have hiff : path = "/api/health" ↔ rest = "/health".toList := by
      rw [hapi]
      constructor
      · intro h
        have hlist := congrArg String.toList h
        simpa using hlist
      · rintro rfl
        rfl
    rw [or_iff_right hne, hiff]
    split
    · simp
    · rename_i tail
      constructor
      · intro h
        rw [← h, String.toList_ofList]
      · intro h
        rw [h]
        rfl
    · rename_i hslash
      refine ⟨fun h => absurd h hne, fun h => ?_⟩
      exact absurd h (hslash _)
  · rename_i hnot
    refine ⟨.inl, fun h => ?_⟩
    rcases h with h | h
    · exact h
    · exact absurd (congrArg String.toList h) (hnot _)

/-- What is used of the library that reads tokens: the `kid` of an unverified
header, `none` where the token is malformed, and whether `jwt.decode` accepts a
token for an audience and an issuer at a time. -/
structure JwtLib (Key : Type u) where
  headerKid : String → Option (Option String)
  decodes : Key → String → String → String → ℚ → Bool

/-- An entry of the set of keys, `none` where `PyJWK` refuses it. -/
structure JwksEntry (Key : Type u) where
  kid : Option String
  key : Option Key
  deriving DecidableEq

/-- A set of keys as the endpoint answers it, `none` where it is empty JSON. -/
abbrev Jwks (Key : Type u) := Option (List (JwksEntry Key))

/-- What a look-up of the keys meets: the clock, the answer of the endpoint,
`none` where the fetch raises, and the clock after it. -/
structure JwksCall (Key : Type u) where
  now : ℚ
  answer : Option (Jwks Key)
  doneAt : ℚ

structure AccessRequest (Key : Type u) where
  path : String
  websocket : Bool := false
  /-- `Cf-Access-Jwt-Assertion`. -/
  header : Option String := none
  /-- `CF_Authorization`. -/
  cookie : Option String := none
  utc : ℚ
  first : JwksCall Key
  second : JwksCall Key

inductive Verdict where
  | admitted
  | forbidden (detail : String)
  /-- A websocket is closed with 1008. -/
  | closed (reason : String)
  /-- An exception that is no `HTTPException`: the request fails with 500. -/
  | failed
  deriving DecidableEq

/-- Why a request is not let in. -/
inductive Refusal where
  | http (detail : String)
  | raised
  deriving DecidableEq

/-- `CF_ACCESS_TEAM_DOMAIN` and `CF_ACCESS_AUD`. -/
structure AccessConfig where
  teamDomain : Option String := none
  audience : Option String := none

/-- `os.environ.get(...) or None`. -/
def setting (value : Option String) : Option String := value.filter (· ≠ "")

/-- `enabled`, with the two values. -/
def AccessConfig.enabled (cfg : AccessConfig) : Option (String × String) := do
  let team ← setting cfg.teamDomain
  let aud ← setting cfg.audience
  pure (team, aud)

/-- `issuer`. -/
def issuer (team : String) : String := "https://" ++ team

/-- `_jwks_cache` and `_jwks_fetched_at`. -/
structure AccessGate (Key : Type u) where
  cache : Jwks Key := none
  fetchedAt : ℚ := 0
  attempts : ℕ := 0
  log : List (Jwks Key × ℚ) := []

variable {Key : Type u}

/-- `jwt.PyJWK(entry).key` of the first entry of the `kid`. -/
def findKey (kid : String) (doc : Jwks Key) : Option (Option Key) :=
  ((doc.getD []).find? fun e => e.kid = some kid).map (·.key)

/-- The token a request carries. -/
def AccessRequest.token (r : AccessRequest Key) : Option String :=
  (setting r.header).or (setting r.cookie)

namespace AccessGate

/-- `_jwks`. -/
def jwks (g : AccessGate Key) (call : JwksCall Key) (force : Bool) :
    AccessGate Key × Option (Jwks Key) :=
  if force ∨ jwksTtlS < call.now - g.fetchedAt ∨ g.cache.isNone then
    let g := { g with attempts := g.attempts + 1 }
    match call.answer with
    | none => (g, none)
    | some doc =>
        ({ g with
          cache := doc
          fetchedAt := call.doneAt
          log := g.log ++ [(doc, call.doneAt)] }, some doc)
  else (g, some g.cache)

/-- `_key_for`, of a token whose `kid` is read. -/
def keyFor (g : AccessGate Key) (kid : String) (r : AccessRequest Key) :
    AccessGate Key × Except Refusal Key :=
  match g.jwks r.first false with
  | (g, none) => (g, .error .raised)
  | (g, some doc) =>
      match findKey kid doc with
      | some (some key) => (g, .ok key)
      | some none => (g, .error .raised)
      | none =>
          -- the key may have been rotated in since: one forced fetch
          match g.jwks r.second true with
          | (g, none) => (g, .error .raised)
          | (g, some doc) =>
              match findKey kid doc with
              | some (some key) => (g, .ok key)
              | some none => (g, .error .raised)
              | none => (g, .error (.http "access assertion signed by an unknown key"))

/-- `_verify`. -/
def verify (lib : JwtLib Key) (team aud : String) (g : AccessGate Key) (r : AccessRequest Key) :
    AccessGate Key × Except Refusal Unit :=
  match r.token with
  | none => (g, .error (.http "no Cloudflare Access assertion"))
  | some token =>
      match lib.headerKid token with
      | none => (g, .error (.http "invalid Cloudflare Access assertion"))
      | some kid =>
          match setting kid with
          | none => (g, .error (.http "access assertion has no kid"))
          | some kid =>
              match g.keyFor kid r with
              | (g, .error e) => (g, .error e)
              | (g, .ok key) =>
                  if lib.decodes key token aud (issuer team) r.utc then (g, .ok ())
                  else (g, .error (.http "invalid Cloudflare Access assertion"))

/-- How a refusal reaches the caller. -/
def verdictOf (websocket : Bool) : Except Refusal Unit → Verdict
  | .ok () => .admitted
  | .error .raised => .failed
  | .error (.http detail) => if websocket then .closed detail else .forbidden detail

/-- `require_access`, of a request as the middleware hands it on. -/
def requireAccess (lib : JwtLib Key) (cfg : AccessConfig) (g : AccessGate Key)
    (r : AccessRequest Key) : AccessGate Key × Verdict :=
  match cfg.enabled with
  | none => (g, .admitted)
  | some (team, aud) =>
      if stripApiPrefix r.path ∈ exemptPaths then (g, .admitted)
      else
        let verified := verify lib team aud g r
        (verified.1, verdictOf r.websocket verified.2)

/-- The requests of a process, one after the other. -/
def step (lib : JwtLib Key) (cfg : AccessConfig) (g : AccessGate Key) (r : AccessRequest Key) :
    AccessGate Key :=
  (requireAccess lib cfg g r).1

/-! ## The keys that are held -/

/-- What is cached was fetched, when it says. -/
def Fetched (g : AccessGate Key) : Prop := g.cache = none ∨ (g.cache, g.fetchedAt) ∈ g.log

/-- What a look-up answers: a set fetched for it, or the one that is cached and
not yet an hour old. -/
structure Answered (g g' : AccessGate Key) (call : JwksCall Key) (doc : Jwks Key) : Prop where
  fetched : Fetched g'
  source : (∃ at_, g'.log = g.log ++ [(doc, at_)] ∧ call.answer = some doc) ∨
    g' = g ∧ doc = g.cache ∧ g.cache ≠ none ∧ call.now - g.fetchedAt ≤ jwksTtlS

section Lookup

variable {g g' : AccessGate Key} {call : JwksCall Key} {force : Bool}

theorem jwks_some {doc : Jwks Key} (hg : Fetched g) (h : g.jwks call force = (g', some doc)) :
    Answered g g' call doc := by
  unfold jwks at h
  split at h
  · cases ha : call.answer with
    | none =>
        rw [ha] at h
        cases h
    | some answer =>
        rw [ha] at h
        cases h
        exact ⟨.inr (List.mem_append_right _ (List.mem_singleton_self _)),
          .inl ⟨call.doneAt, rfl, ha⟩⟩
  · rename_i hheld
    cases h
    simp only [not_or, Option.isNone_iff_eq_none] at hheld
    exact ⟨hg, .inr ⟨rfl, rfl, hheld.2.2, not_lt.mp hheld.2.1⟩⟩

/-- A fetch that raises leaves what was cached. -/
theorem jwks_none (h : g.jwks call force = (g', none)) :
    g'.log = g.log ∧ (Fetched g → Fetched g') := by
  unfold jwks at h
  split at h
  · cases ha : call.answer with
    | none =>
        rw [ha] at h
        cases h
        exact ⟨rfl, id⟩
    | some answer =>
        rw [ha] at h
        cases h
  · cases h

theorem attempts_jwks (g : AccessGate Key) (call : JwksCall Key) (force : Bool) :
    (g.jwks call force).1.attempts ≤ g.attempts + 1 := by
  unfold jwks
  split
  · cases call.answer with
    | none => exact le_refl _
    | some doc => exact le_refl _
  · exact Nat.le_succ _

end Lookup

/-- What a look-up of a key does: it tries at most two fetches, and a key it finds
is of a set fetched for this request, or fetched within the hour before it. -/
structure Consulted (g : AccessGate Key) (kid : String) (r : AccessRequest Key)
    (g' : AccessGate Key) (found : Except Refusal Key) : Prop where
  fetched : Fetched g'
  attempts : g'.attempts ≤ g.attempts + 2
  sound : ∃ new, g'.log = g.log ++ new ∧ new.length ≤ 2 ∧ ∀ key, found = .ok key →
    ∃ doc at_, findKey kid doc = some (some key) ∧
      ((doc, at_) ∈ new ∨ (doc, at_) ∈ g.log ∧ r.first.now - at_ ≤ jwksTtlS)

variable {g : AccessGate Key} {kid : String} {r : AccessRequest Key}

/-- The set a first look-up answers, as the source of a key. -/
theorem source_of_answered {g' : AccessGate Key} {doc : Jwks Key} (hg : Fetched g)
    (h : Answered g g' r.first doc) :
    ∃ new, g'.log = g.log ++ new ∧ new.length ≤ 1 ∧
      ∃ at_, (doc, at_) ∈ new ∨ (doc, at_) ∈ g.log ∧ r.first.now - at_ ≤ jwksTtlS := by
  rcases h.source with ⟨at_, hlog, -⟩ | ⟨rfl, rfl, hsome, hage⟩
  · exact ⟨[(doc, at_)], hlog, le_refl _, at_, .inl (List.mem_singleton_self _)⟩
  · exact ⟨[], (List.append_nil _).symm, Nat.zero_le _, g'.fetchedAt,
      .inr ⟨hg.resolve_left hsome, hage⟩⟩

theorem keyFor_consulted (hg : Fetched g) (kid : String) (r : AccessRequest Key) :
    Consulted g kid r (g.keyFor kid r).1 (g.keyFor kid r).2 := by
  unfold keyFor
  have htried₁ := attempts_jwks g r.first false
  rcases hfirst : g.jwks r.first false with ⟨g₁, _ | doc₁⟩
  · rw [hfirst] at htried₁
    obtain ⟨hlog₁, hkept₁⟩ := jwks_none hfirst
    exact ⟨hkept₁ hg, Nat.le_succ_of_le htried₁, [], by rw [hlog₁, List.append_nil],
      Nat.zero_le _, fun _ hk => by cases hk⟩
  · rw [hfirst] at htried₁
    replace htried₁ : g₁.attempts ≤ g.attempts + 1 := htried₁
    have h₁ := jwks_some hg hfirst
    obtain ⟨new₁, hlog₁, hlen₁, at₁, hat₁⟩ := source_of_answered hg h₁
    simp only
    rcases hkey₁ : findKey kid doc₁ with _ | _ | key
    · simp only
      -- not among them: one more look-up, which always fetches
      have htried₂ := attempts_jwks g₁ r.second true
      rcases hsecond : g₁.jwks r.second true with ⟨g₂, _ | doc₂⟩
      · rw [hsecond] at htried₂
        obtain ⟨hlog₂, hkept₂⟩ := jwks_none hsecond
        have htried : g₂.attempts ≤ g₁.attempts + 1 := htried₂
        exact ⟨hkept₂ h₁.fetched, htried.trans (by omega), new₁, hlog₂.trans hlog₁, by omega,
          fun _ hk => by cases hk⟩
      · rw [hsecond] at htried₂
        have htried : g₂.attempts ≤ g.attempts + 2 :=
          (show g₂.attempts ≤ g₁.attempts + 1 from htried₂).trans (by omega)
        have h₂ := jwks_some h₁.fetched hsecond
        obtain ⟨new₂, hlog₂, hlen₂, hmem₂⟩ : ∃ new, g₂.log = g₁.log ++ new ∧ new.length ≤ 1 ∧
            ∃ at_, (doc₂, at_) ∈ new := by
          unfold jwks at hsecond
          rw [if_pos (.inl rfl)] at hsecond
          cases ha : r.second.answer with
          | none =>
              rw [ha] at hsecond
              cases hsecond
          | some answer =>
              rw [ha] at hsecond
              cases hsecond
              exact ⟨[(_, _)], rfl, le_refl _, _, List.mem_singleton_self _⟩
        have hlog : g₂.log = g.log ++ (new₁ ++ new₂) := by
          rw [hlog₂, hlog₁, List.append_assoc]
        have hlen : (new₁ ++ new₂).length ≤ 2 := by
          rw [List.length_append]
          omega
        simp only
        rcases hkey₂ : findKey kid doc₂ with _ | _ | key
        · exact ⟨h₂.fetched, htried, _, hlog, hlen, fun _ hk => by cases hk⟩
        · exact ⟨h₂.fetched, htried, _, hlog, hlen, fun _ hk => by cases hk⟩
        · refine ⟨h₂.fetched, htried, _, hlog, hlen, fun k hk => ?_⟩
          cases hk
          obtain ⟨at₂, hat₂⟩ := hmem₂
          exact ⟨doc₂, at₂, hkey₂, .inl (List.mem_append_right _ hat₂)⟩
    · exact ⟨h₁.fetched, Nat.le_succ_of_le htried₁, new₁, hlog₁, by omega,
        fun _ hk => by cases hk⟩
    · refine ⟨h₁.fetched, Nat.le_succ_of_le htried₁, new₁, hlog₁, by omega, fun k hk => ?_⟩
      cases hk
      exact ⟨doc₁, at₁, hkey₁, hat₁⟩

/-- What lets a request in: a token of its own that verifies, for this
application, under a key of a set that is new or not an hour old. -/
def LetIn (lib : JwtLib Key) (team aud : String) (g : AccessGate Key) (r : AccessRequest Key)
    (new : List (Jwks Key × ℚ)) : Prop :=
  ∃ token kid key doc at_, r.token = some token ∧
    lib.headerKid token = some (some kid) ∧ findKey kid doc = some (some key) ∧
    lib.decodes key token aud (issuer team) r.utc = true ∧
    ((doc, at_) ∈ new ∨ (doc, at_) ∈ g.log ∧ r.first.now - at_ ≤ jwksTtlS)

/-- What a verification does, and what it takes to pass. -/
structure Checked (lib : JwtLib Key) (team aud : String) (g : AccessGate Key)
    (r : AccessRequest Key) (g' : AccessGate Key) (passed : Except Refusal Unit) : Prop where
  fetched : Fetched g'
  attempts : g'.attempts ≤ g.attempts + 2
  sound : ∃ new, g'.log = g.log ++ new ∧ new.length ≤ 2 ∧
    (passed = .ok () → LetIn lib team aud g r new)

theorem setting_eq_some {value : Option String} {s : String} (h : setting value = some s) :
    value = some s := by
  unfold setting at h
  exact (Option.filter_eq_some_iff.mp h).1

theorem verify_checked (hg : Fetched g) (lib : JwtLib Key) (team aud : String)
    (r : AccessRequest Key) :
    Checked lib team aud g r (verify lib team aud g r).1 (verify lib team aud g r).2 := by
  -- what is refused before the key set is asked has fetched nothing
  have hrefused : ∀ {e : Refusal}, Checked lib team aud g r g (.error e) := fun {e} =>
    ⟨hg, Nat.le_add_right _ _, [], (List.append_nil _).symm, Nat.zero_le _, fun h => by cases h⟩
  unfold verify
  cases htoken : r.token with
  | none => exact hrefused
  | some token =>
      simp only
      cases hheader : lib.headerKid token with
      | none => exact hrefused
      | some kid =>
          simp only
          cases hkid : setting kid with
          | none => exact hrefused
          | some kid' =>
              obtain ⟨hfetched, htried, new, hlog, hlen, hsound⟩ := keyFor_consulted hg kid' r
              simp only
              rcases hfound : g.keyFor kid' r with ⟨g', _ | key⟩
              · rw [hfound] at hfetched htried hlog
                exact ⟨hfetched, htried, new, hlog, hlen, fun h => by cases h⟩
              · rw [hfound] at hfetched htried hlog hsound
                obtain ⟨doc, at_, hkey, hat⟩ := hsound key rfl
                simp only
                -- a key was found under the `kid`; it only counts if the token verifies under it
                by_cases hdec : lib.decodes key token aud (issuer team) r.utc = true
                · rw [if_pos hdec]
                  refine ⟨hfetched, htried, new, hlog, hlen, fun _ => ?_⟩
                  rw [setting_eq_some hkid] at hheader
                  exact ⟨token, kid', key, doc, at_, htoken, hheader, hkey, hdec, hat⟩
                · rw [if_neg hdec]
                  exact ⟨hfetched, htried, new, hlog, hlen, fun h => by cases h⟩

/-- **One request.** -/
theorem requireAccess_spec (hg : Fetched g) (lib : JwtLib Key) (cfg : AccessConfig)
    (r : AccessRequest Key) :
    Fetched (g.requireAccess lib cfg r).1 ∧
      (g.requireAccess lib cfg r).1.attempts ≤ g.attempts + 2 ∧
      ∃ new, (g.requireAccess lib cfg r).1.log = g.log ++ new ∧ new.length ≤ 2 ∧
        ∀ team aud, cfg.enabled = some (team, aud) → stripApiPrefix r.path ∉ exemptPaths →
          (g.requireAccess lib cfg r).2 = .admitted → LetIn lib team aud g r new := by
  unfold requireAccess
  cases henabled : cfg.enabled with
  | none =>
      refine ⟨hg, Nat.le_add_right _ _, [], (List.append_nil _).symm, Nat.zero_le _,
        fun team aud h => ?_⟩
      cases h
  | some on =>
      obtain ⟨team, aud⟩ := on
      simp only
      by_cases hexempt : stripApiPrefix r.path ∈ exemptPaths
      · rw [if_pos hexempt]
        exact ⟨hg, Nat.le_add_right _ _, [], (List.append_nil _).symm, Nat.zero_le _,
          fun _ _ _ hnot => absurd hexempt hnot⟩
      · rw [if_neg hexempt]
        obtain ⟨hfetched, htried, new, hlog, hlen, hsound⟩ := verify_checked hg lib team aud r
        refine ⟨hfetched, htried, new, hlog, hlen, fun team' aud' hon _ hadmitted => ?_⟩
        cases hon
        refine hsound ?_
        rcases hv : (verify lib team aud g r).2 with (detail | _) | _
        · cases hw : r.websocket <;> simp [hv, hw, verdictOf] at hadmitted
        · simp [hv, verdictOf] at hadmitted
        · rfl

theorem fetched_run (lib : JwtLib Key) (cfg : AccessConfig) (rs : List (AccessRequest Key)) :
    Fetched (Runs.run (step lib cfg) {} rs) :=
  Runs.run_inv (I := Fetched) (fun _ r h => (requireAccess_spec h lib cfg r).1) rs (.inl rfl)

end AccessGate

open AccessGate

/-- **Nothing gets in without a key.** After any requests, the next one tries at
most two fetches; if the door is configured, and it is not for the health
check, it is let in only with a token that verifies, for this application,
under a key of a set that was fetched for it, or in the hour before. -/
theorem admitted_with_key (lib : JwtLib Key) (cfg : AccessConfig)
    (rs : List (AccessRequest Key)) (r : AccessRequest Key) :
    let g := Runs.run (step lib cfg) {} rs
    (g.requireAccess lib cfg r).1.attempts ≤ g.attempts + 2 ∧
    ∃ new, (g.requireAccess lib cfg r).1.log = g.log ++ new ∧ new.length ≤ 2 ∧
      ∀ team aud, cfg.enabled = some (team, aud) → r.path ≠ "/health" → r.path ≠ "/api/health" →
        (g.requireAccess lib cfg r).2 = .admitted → LetIn lib team aud g r new := by
  intro g
  obtain ⟨-, htried, new, hlog, hlen, hsound⟩ :=
    requireAccess_spec (fetched_run lib cfg rs) lib cfg r
  refine ⟨htried, new, hlog, hlen, fun team aud hon hpath hapi => hsound team aud hon ?_⟩
  rw [exempt_iff]
  exact not_or.mpr ⟨hpath, hapi⟩

/-- **A rotation is invisible.** After any requests, let the endpoint answer a
set that holds a key; a token that verifies under it is let in at once,
whatever is cached, unless a set that was fetched before gave its `kid` to
another key. -/
theorem published_key_admitted (lib : JwtLib Key) (cfg : AccessConfig)
    (rs : List (AccessRequest Key)) (r : AccessRequest Key) {team aud token kid : String}
    {key : Key} {doc : Jwks Key} (henabled : cfg.enabled = some (team, aud))
    (htoken : r.token = some token) (hkid : lib.headerKid token = some (some kid))
    (hne : kid ≠ "") (hkey : findKey kid doc = some (some key))
    (hdec : lib.decodes key token aud (issuer team) r.utc = true)
    (hfirst : r.first.answer = some doc) (hsecond : r.second.answer = some doc)
    (hlog : ∀ old at_, (old, at_) ∈ (Runs.run (step lib cfg) {} rs).log →
      findKey kid old = none ∨ findKey kid old = some (some key)) :
    ((Runs.run (step lib cfg) {} rs).requireAccess lib cfg r).2 = .admitted := by
  have hfetched := fetched_run lib cfg rs
  generalize Runs.run (step lib cfg) {} rs = g at hlog hfetched
  have hfound : (g.keyFor kid r).2 = .ok key := by
    unfold keyFor
    -- the first look may be answered from the cache
    rcases h₁ : g.jwks r.first false with ⟨g₁, _ | doc₁⟩
    · unfold jwks at h₁
      rw [hfirst] at h₁
      split at h₁
      · cases h₁
      · cases h₁
    · have hdoc₁ : findKey kid doc₁ = none ∨ findKey kid doc₁ = some (some key) := by
        rcases (jwks_some hfetched h₁).source with ⟨at_, -, ha⟩ | ⟨-, rfl, hsome, -⟩
        · rw [hfirst] at ha
          cases ha
          exact .inr hkey
        · exact hlog _ _ (hfetched.resolve_left hsome)
      -- a cached set without the `kid` forces the second fetch, which has it
      rcases hdoc₁ with hnone | hsome
      · have h₂ : (g₁.jwks r.second true).2 = some doc := by
          unfold jwks
          rw [if_pos (.inl rfl), hsecond]
        rcases hg₂ : g₁.jwks r.second true with ⟨g₂, found⟩
        rw [hg₂] at h₂
        cases h₂
        simp only [hnone, hg₂, hkey]
      · simp only [hsome]
  have hsetting : setting (some kid) = some kid := by
    simp [setting, Option.filter, hne]
  unfold requireAccess
  rw [henabled]
  simp only
  split
  · rfl
  · unfold verify
    rw [htoken]
    simp only [hkid, hsetting]
    rcases hg : g.keyFor kid r with ⟨g', found⟩
    rw [hg] at hfound
    cases hfound
    simp only [hdec, if_true]
    rfl

/-! ### A key that is rotated in -/

namespace Rotation

/-- A token is its header, its claims and its signature, with dots between: the
`kid`, audience and issuer, and the key that signed. -/
def lib : JwtLib String where
  headerKid token :=
    match token.toList.splitOn '.' with
    | [kid, _, _] => some (some (String.ofList kid))
    | _ => none
  decodes key token aud iss _ :=
    match token.toList.splitOn '.' with
    | [_, claims, signature] =>
        String.ofList claims == aud ++ "@" ++ iss && String.ofList signature == key
    | _ => false

/-- A token for the application, signed by a key. -/
def token (kid : String) : String := kid ++ ".app@https://team." ++ kid

def cfg : AccessConfig := { teamDomain := some "team", audience := some "app" }

def keys (kids : List String) : Jwks String := some (kids.map fun kid => ⟨some kid, some kid⟩)

/-- A request when the endpoint answers these keys. -/
def ask (kid : String) (now : ℚ) (kids : List String) : AccessRequest String where
  path := "/api/monitored"
  header := some (token kid)
  utc := now
  first := ⟨now, some (keys kids), now⟩
  second := ⟨now, some (keys kids), now⟩

end Rotation

open Rotation in
theorem admitted_with_key_rotated :
    ∃ new, LetIn lib "team" "app" (Runs.run (step lib cfg) {} [ask "k1" 10 ["k1"]])
      (ask "k2" 20 ["k1", "k2"]) new := by
  obtain ⟨-, new, -, -, hsound⟩ :=
    admitted_with_key lib cfg [ask "k1" 10 ["k1"]] (ask "k2" 20 ["k1", "k2"])
  exact ⟨new, hsound "team" "app" (by decide) (by decide) (by decide) (by decide +kernel)⟩

open Rotation in
theorem published_key_admitted_rotated :
    ((Runs.run (step lib cfg) {} [ask "k1" 10 ["k1"]]).requireAccess lib cfg
      (ask "k2" 20 ["k1", "k2"])).2 = .admitted := by
  refine published_key_admitted lib cfg [ask "k1" 10 ["k1"]] (ask "k2" 20 ["k1", "k2"])
    (show cfg.enabled = some ("team", "app") by decide) rfl
    (show lib.headerKid (token "k2") = some (some "k2") by decide +kernel) (by decide)
    (show findKey "k2" (keys ["k1", "k2"]) = some (some "k2") by decide) (by decide +kernel) rfl rfl
    fun old at_ hmem => ?_
  have hlog : (Runs.run (step lib cfg) {} [ask "k1" 10 ["k1"]]).log = [(keys ["k1"], 10)] := by
    decide +kernel
  rw [hlog, List.mem_singleton] at hmem
  cases hmem
  exact .inl (by decide)

end Arbys
