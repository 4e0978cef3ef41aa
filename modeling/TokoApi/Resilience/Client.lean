import TokoApi.Lib.Durations
import TokoApi.Lib.Wrap

/-!
# Backoff and the retrying HTTP client

`resilience.Backoff` (circuit.go) and `HTTPClient.Do` (httpwrap.go). The shift
and the product of the backoff are on `time.Duration`, a signed 64-bit integer,
and wrap; its random part is an argument. What the network and the circuit
breaker answer to each attempt is an argument of `Do`, which is modelled without
a fallback, as the client is wired.
-/
namespace TokoApi.Resilience

open Lib.Durations Lib.Wrap

/-- `delta` is the jitter that was drawn; it is not used where there is none. -/
def backoff (base attempt : Int) (jitter : Bool) (delta : Int) : Int :=
  let attempt := if attempt < 1 then 1 else attempt
  let base := if base ≤ 0 then 100 * millisecond else base
  let d := int64 (base * int64 (2 ^ (attempt - 1).toNat))
  if jitter then d + delta else d

/-- A response: the status, and the body or the error that reading it gives. -/
structure HTTPResponse where
  status : Int
  statusText : String
  body : Except String String

/-- How one attempt ends. `interrupted` is the context's error, if it ends the
pause after a failed attempt. -/
inductive Attempt where
  | circuitOpen
  | transport (err : String) (interrupted : Option String)
  | response (r : HTTPResponse) (interrupted : Option String)

/-- The statuses the peer answered with, and what `Do` returns. -/
abbrev DoResult := List Int × Except String HTTPResponse

/-- What the loop sees of an attempt: it ends the loop, or has failed. -/
inductive Seen where
  | final (r : Except String HTTPResponse)
  | failed (err : String) (interrupted : Option String)

/-- The breaker stops the loop; a status below 500 is an answer, whatever it is. -/
def Attempt.seen : Attempt → List Int × Seen
  | .circuitOpen => ([], .final (.error "resilience: circuit breaker open"))
  | .transport err interrupted => ([], .failed err interrupted)
  | .response r interrupted =>
    ([r.status], if r.status < 500 then .final (.ok r) else .failed r.statusText interrupted)

/-- The loop of `Do`, from attempt `k`, which is followed by at most `left` more. -/
def doLoop (xs : Nat → Attempt) (k : Nat) : Nat → DoResult
  | 0 =>
    match (xs k).seen with
    | (codes, .final r) => (codes, r)
    | (codes, .failed err _) => (codes, .error err)
  | left + 1 =>
    match (xs k).seen with
    | (codes, .final r) => (codes, r)
    | (codes, .failed _ (some e)) => (codes, .error e)
    | (codes, .failed _ none) =>
      let rest := doLoop xs (k + 1) left
      (codes ++ rest.1, rest.2)

def httpDo (maxAttempts : Int) (xs : Nat → Attempt) : DoResult :=
  doLoop xs 1 ((if maxAttempts ≤ 0 then 1 else maxAttempts).toNat - 1)

variable {codes : List Int} {r : HTTPResponse}

theorem seen_ok {x : Attempt} (h : x.seen = (codes, .final (.ok r))) : r.status ∈ codes := by
  cases x with
  | circuitOpen | transport err interrupted => cases h
  | response a interrupted =>
    simp only [Attempt.seen] at h
    split at h <;> cases h
    exact List.mem_singleton.mpr rfl

theorem doLoop_ok {xs : Nat → Attempt} {k left : Nat}
    (h : doLoop xs k left = (codes, .ok r)) : r.status ∈ codes := by
  induction left generalizing k codes with
  | zero =>
    unfold doLoop at h
    split at h <;> rename_i hs <;> cases h
    exact seen_ok hs
  | succ left ih =>
    unfold doLoop at h
    split at h <;> rename_i hs
    · cases h
      exact seen_ok hs
    · cases h
    · obtain ⟨hc, hr⟩ := Prod.mk.inj h
      rw [← hc]
      exact List.mem_append_right _ (ih (Prod.ext rfl hr))

theorem httpDo_ok {maxAttempts : Int} {xs : Nat → Attempt}
    (h : httpDo maxAttempts xs = (codes, .ok r)) : r.status ∈ codes :=
  doLoop_ok h

end TokoApi.Resilience
