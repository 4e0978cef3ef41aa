import TokoApi.Auth.Service
import TokoApi.Lib.Durations

/-!
# Access tokens

`ParseAccessToken` (auth/service.go) and `TokenValidator.Validate`
(auth/jwt_validator.go). What jwx v2 does is in the laws of `Jwx`: `jwt.Validate` truncates
instants to whole seconds, and a time claim of zero counts as one that is not there.

`jwt.ParseString` validates the token too, without skew, before `Validate` does it with
the configured one. So the skew has no effect: a token whose time claims hold only up to
it is rejected.
-/
namespace TokoApi.Auth

open Lib.Text Lib.Durations

/-- Instants in nanoseconds. -/
structure Token where
  subject : String
  issuer : Option String
  audience : List String
  issuedAt : Option Int
  expiration : Option Int
  notBefore : Option Int

inductive TokenError where
  | missingAlgorithm
  | unexpectedAlgorithm (algorithm : String)
  | jwx (err : String)
  deriving DecidableEq

/-! ## jwx -/

/-- The zero `time.Time`. -/
def zeroTime : Int := -62135596800 * second

def checkedTime (claim : Option Int) : Option Int :=
  claim.filter fun t => t ≠ zeroTime ∧ t / second ≠ 0

/-- `none` where no issuer or audience is asked for. -/
structure ValidateOptions where
  clock : Int
  acceptableSkew : Int
  issuer : Option String
  audience : Option String

/-- The time claims hold at `now` up to the skew, in whole seconds. -/
structure TimelyUpTo (skew now : Int) (tok : Token) : Prop where
  issued : ∀ t ∈ checkedTime tok.issuedAt, truncate second t - skew ≤ truncate second now
  unexpired : ∀ t ∈ checkedTime tok.expiration, truncate second now < truncate second t + skew
  begun : ∀ t ∈ checkedTime tok.notBefore, truncate second t - skew ≤ truncate second now

structure Accepts (o : ValidateOptions) (tok : Token) : Prop where
  timely : TimelyUpTo o.acceptableSkew o.clock tok
  issuer : ∀ iss ∈ o.issuer, tok.issuer = some iss
  audience : ∀ aud ∈ o.audience, aud ∈ tok.audience

/-- The library. `jws` gives the algorithms of the signatures of a token, as far as their
protected headers have them; `verify` checks the signature under an algorithm and the
service's secret, and decodes the claims. `jwt.ParseString` with a key verifies the token and
validates it by the system's clock, with no skew. -/
structure Jwx where
  jws : String → Except String (List (Option String))
  verify : String → String → Except String Token
  validate : ValidateOptions → Token → Except String Unit
  parseString : Int → String → String → Option Token
  validates : ∀ o tok, (validate o tok).isOk = true ↔ Accepts o tok
  parses : ∀ system algorithm token, parseString system algorithm token =
    (verify algorithm token).toOption.filter fun tok => (validate ⟨system, 0, none, none⟩ tok).isOk

/-! ## TokenValidator -/

structure TokenValidator where
  issuer : String
  audience : String
  clockSkew : Int
  algorithm : String

/-- An empty setting is not checked. -/
def nonEmpty (value : String) : Option String := if value = "" then none else some value

namespace TokenValidator

variable (v : TokenValidator)

def options (now : Int) : ValidateOptions where
  clock := now
  acceptableSkew := if 0 < v.clockSkew then v.clockSkew else 0
  issuer := nonEmpty v.issuer
  audience := nonEmpty v.audience

def validate (lib : Jwx) (tok : Token) (algorithm : String) (now : Int) : Except TokenError Unit :=
  if algorithm = "" then .error .missingAlgorithm
  else if v.algorithm ≠ "" ∧ algorithm ≠ v.algorithm then .error (.unexpectedAlgorithm algorithm)
  else (lib.validate (v.options now) tok).mapError .jwx

end TokenValidator

/-! ## ParseAccessToken -/

structure TokenService where
  lib : Jwx
  validator : TokenValidator

/-- The loop of `extractTokenAlgorithm` over the signatures. -/
def commonAlgorithm : String → List (Option String) → Except String String
  | algorithm, [] => .ok algorithm
  | algorithm, alg :: rest =>
    match alg with
    | none => .error "auth: token missing protected headers"
    | some alg =>
      if alg = "" then .error "auth: token missing algorithm"
      else if alg = "none" then .error "auth: token uses none algorithm"
      else if algorithm = "" then commonAlgorithm alg rest
      else if algorithm ≠ alg then .error "auth: mixed token algorithms detected"
      else commonAlgorithm algorithm rest

def unauthorized (message : String) : AuthError := .app "UNAUTHORIZED" message 401

namespace TokenService

variable (svc : TokenService)

def extractTokenAlgorithm (token : String) : Except String String :=
  match svc.lib.jws token with
  | .error err => .error err
  | .ok [] => .error "auth: token contains no signatures"
  | .ok signatures => commonAlgorithm "" signatures

/-- `system` and `now` are the two clocks. -/
def parseAccessToken (system now : Int) (token : String) : Except AuthError String :=
  let trimmed := trimSpace token
  if trimmed = "" then .error (unauthorized "missing token")
  else
    match svc.extractTokenAlgorithm trimmed with
    | .error _ => .error (unauthorized "invalid token")
    | .ok algorithm =>
      if svc.validator.algorithm ≠ "" ∧ algorithm ≠ svc.validator.algorithm then
        .error (unauthorized "invalid token")
      else
        match svc.lib.parseString system algorithm trimmed with
        | none => .error (unauthorized "invalid token")
        | some tok =>
          match svc.validator.validate svc.lib tok algorithm now with
          | .error _ => .error (unauthorized "invalid token")
          | .ok _ => .ok tok.subject

end TokenService

/-! ## What is accepted -/

/-- Issuer and audience are those of the validator, where it has any. -/
structure Matches (v : TokenValidator) (tok : Token) : Prop where
  issuer : v.issuer ≠ "" → tok.issuer = some v.issuer
  audience : v.audience ≠ "" → v.audience ∈ tok.audience

/-- The token has one algorithm, the service's, and is signed with the secret. -/
structure Signed (svc : TokenService) (token : String) (tok : Token) : Prop where
  present : trimSpace token ≠ ""
  algorithm : svc.extractTokenAlgorithm (trimSpace token) = .ok svc.validator.algorithm
  named : svc.validator.algorithm ≠ ""
  verified : svc.lib.verify svc.validator.algorithm (trimSpace token) = .ok tok

variable {lib : Jwx} {svc : TokenService} {v : TokenValidator} {tok : Token}

theorem mem_nonEmpty {value x : String} : x ∈ nonEmpty value ↔ value ≠ "" ∧ value = x := by
  unfold nonEmpty
  split
  · rename_i h
    simp [h]
  · rename_i h
    simp [h]

theorem validator_isOk_iff (hnamed : v.algorithm ≠ "") (hskew : 0 ≤ v.clockSkew) (now : Int) :
    (v.validate lib tok v.algorithm now).isOk = true ↔
      Matches v tok ∧ TimelyUpTo v.clockSkew now tok := by
  have hoptions : (v.options now).acceptableSkew = v.clockSkew := by
    simp only [TokenValidator.options]
    split <;> omega
  have halgorithm : ¬ (v.algorithm ≠ "" ∧ v.algorithm ≠ v.algorithm) := fun h => h.2 rfl
  have hmapped : ∀ r : Except String Unit, (r.mapError TokenError.jwx).isOk = r.isOk := by
    rintro (_ | _) <;> rfl
  rw [TokenValidator.validate, if_neg hnamed, if_neg halgorithm, hmapped, lib.validates]
  have hmatches : ((∀ iss ∈ (v.options now).issuer, tok.issuer = some iss) ∧
      ∀ aud ∈ (v.options now).audience, aud ∈ tok.audience) ↔ Matches v tok := by
    simp only [TokenValidator.options, mem_nonEmpty]
    constructor
    · rintro ⟨hiss, haud⟩
      exact ⟨fun h => hiss _ ⟨h, rfl⟩, fun h => haud _ ⟨h, rfl⟩⟩
    · rintro ⟨hiss, haud⟩
      refine ⟨?_, ?_⟩
      · rintro _ ⟨h, rfl⟩
        exact hiss h
      · rintro _ ⟨h, rfl⟩
        exact haud h
  constructor
  · intro h
    exact ⟨hmatches.mp ⟨h.issuer, h.audience⟩, hoptions ▸ h.timely⟩
  · rintro ⟨h, htimely⟩
    exact ⟨hoptions ▸ htimely, (hmatches.mpr h).1, (hmatches.mpr h).2⟩

theorem parseString_eq {algorithm token : String} (system : Int)
    (h : lib.verify algorithm token = .ok tok) :
    (TimelyUpTo 0 system tok ∧ lib.parseString system algorithm token = some tok) ∨
      (¬ TimelyUpTo 0 system tok ∧ lib.parseString system algorithm token = none) := by
  have hok : (lib.validate ⟨system, 0, none, none⟩ tok).isOk = true ↔ TimelyUpTo 0 system tok := by
    rw [lib.validates]
    exact ⟨Accepts.timely, fun ht => ⟨ht, Lib.Threads.forall_mem_none, Lib.Threads.forall_mem_none⟩⟩
  rw [lib.parses, h, ← hok, Except.toOption, Option.filter_some]
  cases (lib.validate ⟨system, 0, none, none⟩ tok).isOk <;> simp

theorem parse_isOk_iff {token : String} (hsigned : Signed svc token tok) (system now : Int) :
    (svc.parseAccessToken system now token).isOk = true ↔
      TimelyUpTo 0 system tok ∧ (svc.validator.validate svc.lib tok svc.validator.algorithm now).isOk = true := by
  have halgorithm : ¬ (svc.validator.algorithm ≠ "" ∧
      svc.validator.algorithm ≠ svc.validator.algorithm) := fun h => h.2 rfl
  simp only [TokenService.parseAccessToken, if_neg hsigned.present, hsigned.algorithm,
    if_neg halgorithm]
  rcases parseString_eq system hsigned.verified with ⟨htimely, hparsed⟩ | ⟨hnot, hparsed⟩
  · rw [hparsed, and_iff_right htimely]
    dsimp only
    cases svc.validator.validate svc.lib tok svc.validator.algorithm now <;> rfl
  · rw [hparsed]
    exact iff_of_false Bool.false_ne_true fun h => hnot h.1

/-- The token is not one that is right but for time claims that hold up to the skew only. -/
def SkewUnneeded (v : TokenValidator) (now : Int) (tok : Token) : Prop :=
  Matches v tok → TimelyUpTo v.clockSkew now tok → TimelyUpTo 0 now tok

/-- For every token that is signed well and every instant, `Validate` accepts it if issuer
and audience match and its time claims hold up to the skew, and `ParseAccessToken` does what
`Validate` does exactly if its time claims do not need the skew. -/
theorem parse_agrees_iff (svc : TokenService) (hskew : 0 ≤ svc.validator.clockSkew) (token : String)
    (tok : Token) (hsigned : Signed svc token tok) (t : Int) :
    (((svc.parseAccessToken t t token).isOk = true ↔
        (svc.validator.validate svc.lib tok svc.validator.algorithm t).isOk = true) ↔
      SkewUnneeded svc.validator t tok) ∧
    ((svc.validator.validate svc.lib tok svc.validator.algorithm t).isOk = true ↔
      Matches svc.validator tok ∧ TimelyUpTo svc.validator.clockSkew t tok) := by
  have hvalidate := @validator_isOk_iff svc.lib svc.validator tok hsigned.named hskew t
  refine ⟨?_, hvalidate⟩
  rw [parse_isOk_iff hsigned, hvalidate]
  constructor
  · intro h hmatches htimely
    exact (h.mpr ⟨hmatches, htimely⟩).1
  · intro h
    exact and_iff_right_of_imp fun hboth => h hboth.1 hboth.2

instance (skew now : Int) (tok : Token) : Decidable (TimelyUpTo skew now tok) :=
  decidable_of_iff ((∀ t ∈ checkedTime tok.issuedAt, _) ∧ (∀ t ∈ checkedTime tok.expiration, _) ∧
    ∀ t ∈ checkedTime tok.notBefore, _) ⟨fun h => ⟨h.1, h.2.1, h.2.2⟩, fun h => ⟨h.1, h.2, h.3⟩⟩

instance (o : ValidateOptions) (tok : Token) : Decidable (Accepts o tok) :=
  decidable_of_iff (TimelyUpTo o.acceptableSkew o.clock tok ∧ (∀ iss ∈ o.issuer, _) ∧
    ∀ aud ∈ o.audience, _) ⟨fun h => ⟨h.1, h.2.1, h.2.2⟩, fun h => ⟨h.1, h.2, h.3⟩⟩

/-- The library where every text stands for the token. -/
def decodes (tok : Token) : Jwx where
  jws _ := .ok [some "HS256"]
  verify _ _ := .ok tok
  validate o tok := if Accepts o tok then .ok () else .error "token not satisfied"
  parseString system _ _ := if Accepts ⟨system, 0, none, none⟩ tok then some tok else none
  validates o tok := by by_cases h : Accepts o tok <;> simp [h, Except.isOk, Except.toBool]
  parses system _ _ := by
    by_cases h : Accepts ⟨system, 0, none, none⟩ tok <;>
      simp [h, Except.isOk, Except.toBool, Except.toOption, Option.filter_some]

/-- A service with a skew of a minute. -/
def decoding (tok : Token) : TokenService where
  lib := decodes tok
  validator := ⟨"backend-toko", "toko-frontend", 60 * second, "HS256"⟩

/-- A token that is issued and begins at one second and expires at another. -/
def lasting (from_ until_ : Int) : Token where
  subject := "user-1"
  issuer := some "backend-toko"
  audience := ["toko-frontend"]
  issuedAt := some (from_ * second)
  expiration := some (until_ * second)
  notBefore := some (from_ * second)

theorem decoding_signed (from_ until_ : Int) :
    Signed (decoding (lasting from_ until_)) "token" (lasting from_ until_) :=
  ⟨by decide +kernel, by rfl, by simp [decoding], rfl⟩

theorem running_token_accepted :
    ((decoding (lasting 100 1000)).validator.validate (decodes (lasting 100 1000))
        (lasting 100 1000) "HS256" (500 * second)).isOk = true ∧
      ((decoding (lasting 100 1000)).parseAccessToken (500 * second) (500 * second) "token").isOk =
        true := by
  have hvalid : ((decoding (lasting 100 1000)).validator.validate (decodes (lasting 100 1000))
      (lasting 100 1000) "HS256" (500 * second)).isOk = true := by decide +kernel
  have hunneeded : SkewUnneeded (decoding (lasting 100 1000)).validator (500 * second)
      (lasting 100 1000) :=
    fun _ _ => ⟨by decide +kernel, by decide +kernel, by decide +kernel⟩
  exact ⟨hvalid, ((parse_agrees_iff (decoding (lasting 100 1000)) (by decide) "token" (lasting 100 1000)
    (decoding_signed 100 1000) (500 * second)).1.mpr hunneeded).mpr hvalid⟩

/-- Half a minute after its end and half a minute before its beginning, `Validate` accepts a
token with a skew of a minute, and `ParseAccessToken` does not. -/
theorem skew_without_effect :
    (((decoding (lasting 100 1000)).validator.validate (decodes (lasting 100 1000))
        (lasting 100 1000) "HS256" (1030 * second)).isOk = true ∧
      (decoding (lasting 100 1000)).parseAccessToken (1030 * second) (1030 * second) "token" =
        .error (unauthorized "invalid token")) ∧
    ((decoding (lasting 100 1000)).validator.validate (decodes (lasting 100 1000))
        (lasting 100 1000) "HS256" (70 * second)).isOk = true ∧
      (decoding (lasting 100 1000)).parseAccessToken (70 * second) (70 * second) "token" =
        .error (unauthorized "invalid token") := by
  decide +kernel

end TokoApi.Auth
