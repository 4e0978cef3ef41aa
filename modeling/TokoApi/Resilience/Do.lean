import TokoApi.Resilience.Breaker

/-!
# The loop of `Do`

`HTTPClient.Do`, `doOnce`, `ensureReplayableBody` and `cloneRequestWithContext` of
httpwrap.go. The breaker is shared: before `Allow` and between `Allow` and `Report`
other callers act on it and time passes, and so they do in the pause after a failed
attempt, which ends when the timer fires or the context is done. What the call does
itself is recorded. Target, logger and the header of the request are left out.

The request's body is read before the first attempt, and every attempt gets a reader of
its own over these bytes; only a request without a body shares it with its clones.
-/
namespace TokoApi.Resilience

open Lib.Durations

/-! ## Bodies -/

/-- `Body` of a request; `rest` is what reading it to the end gives. -/
inductive RequestBody where
  | missing
  | noBody
  | reader (rest : Except String (List UInt8))
  deriving DecidableEq

/-- `getBody` is set or not, returns an error or a body, and reading that gives an
error or its bytes. -/
structure HTTPRequest where
  body : RequestBody
  getBody : Option (Except String (Except String (List UInt8)))

def RequestBody.readAll : RequestBody → Except String (List UInt8)
  | .missing | .noBody => .ok []
  | .reader rest => rest

def RequestBody.drained : RequestBody → RequestBody
  | .reader _ => .reader (.ok [])
  | b => b

def replayable (data : List UInt8) : HTTPRequest := ⟨.reader (.ok data), some (.ok (.ok data))⟩

def ensureReplayableBody (req : HTTPRequest) : Except String (Option (List UInt8) × HTTPRequest) :=
  match req.body with
  | .missing | .noBody => .ok (none, req)
  | .reader rest =>
    match req.getBody with
    | some (.error err) => .error err
    | some (.ok content) => content.map fun data => (some data, replayable data)
    | none => rest.map fun data => (some data, replayable data)

def cloneRequestWithContext (req : HTTPRequest) : Option (List UInt8) → HTTPRequest
  | some data => replayable data
  | none => req

/-- A response comes without a body, or with one that is read from the connection: what of
it has been received when `Client.Do` returns, and what is still to come, unless that was
all. -/
inductive ResponseBody where
  | noBody
  | content (received : String) (rest : Option String)
  deriving DecidableEq

structure PeerAnswer where
  status : Int
  statusText : String
  body : ResponseBody
  deriving DecidableEq

/-- How `Client.Do` ends. -/
inductive RoundTrip where
  | transport (err : String)
  | answered (a : PeerAnswer)
  deriving DecidableEq

/-- What reading a response's body gives, where the flag says that the context of the request
is done. -/
abbrev ReadAll := Bool → ResponseBody → Except String String

/-- The deferred `cancel` has run when `doOnce` returns, so whoever reads the body reads it
under a context that is done. -/
def doOnce (readAll : ReadAll) : RoundTrip → Except String HTTPResponse
  | .transport err => .error err
  | .answered a => .ok ⟨a.status, a.statusText, readAll true a.body⟩

/-! ## The client -/

inductive DoError where
  | notConfigured
  | body (err : String)
  | openCircuit
  | transport (err : String)
  | status (text : String)
  | context (err : String)
  deriving DecidableEq

def DoError.text : DoError → String
  | .notConfigured => "resilience: http client not configured"
  | .openCircuit => "resilience: circuit breaker open"
  | .body err | .transport err | .status err | .context err => err

/-- The response and the error that `Do` returns. -/
abbrev DoReturn := Option HTTPResponse × Option DoError

/-- `configured` and `breaker` say that the fields are set; `jitter` that it is positive. -/
structure HTTPClient where
  configured : Bool
  breaker : Bool
  baseBackoff : Int
  maxAttempts : Int
  jitter : Bool
  fallback : Option (DoError → DoReturn)

/-- What happens around an attempt: what others do until `Allow` and until `Report`, the
end of the request, the jitter that is drawn for the pause that follows, and the
context's error if it ends that pause. -/
structure Round where
  before : List Event
  during : List Event
  result : RoundTrip
  delta : Int
  interrupted : Option String

/-- What the call itself does. -/
inductive ClientOp where
  | allow (admitted : Bool)
  | send (body : Except String (List UInt8)) (result : RoundTrip)
  | report (success : Bool)
  deriving DecidableEq

structure DoState where
  timed : Timed
  req : HTTPRequest
  ops : List ClientOp

variable (rnd : ℚ → ℚ) (readAll : ReadAll) (cl : HTTPClient)

def Timed.after (c : Timed) : List Event → Timed
  | [] => c
  | e :: es => Timed.after ((c.step rnd e).getD c) es

def Event.elapsed : Event → Nat
  | .tick d => d
  | _ => 0

def elapsed (es : List Event) : Nat := es.foldr (fun e n => e.elapsed + n) 0

/-- The timer fires when at least `sleepFor` has passed. -/
def waited (sleepFor : Int) (es : List Event) : List Event :=
  es ++ [.tick (sleepFor - elapsed es).toNat]

def HTTPClient.attempts : Nat := (if cl.maxAttempts ≤ 0 then 1 else cl.maxAttempts).toNat

def HTTPClient.pause (k : Nat) (delta : Int) : Int :=
  backoff (if cl.baseBackoff ≤ 0 then 100 * millisecond else cl.baseBackoff) k cl.jitter delta

def DoState.allow (idle : List Event) (st : DoState) : Bool × DoState :=
  let c := st.timed.after rnd idle
  let answer := c.breaker.allow c.now
  (answer.1, { st with timed := ⟨c.now, answer.2⟩, ops := st.ops ++ [.allow answer.1] })

/-- The clone is sent. A body that it shares with the request is read with it. -/
def DoState.send (orig : Option (List UInt8)) (result : RoundTrip) (st : DoState) : DoState :=
  { st with
    req := if orig.isSome then st.req else { st.req with body := st.req.body.drained }
    ops := st.ops ++ [.send (cloneRequestWithContext st.req orig).body.readAll result] }

def DoState.report (during : List Event) (success : Bool) (st : DoState) : DoState :=
  let c := st.timed.after rnd during
  { st with
    timed := ⟨c.now, c.breaker.report rnd c.now success⟩
    ops := st.ops ++ [.report success] }

def judge (result : RoundTrip) : Except DoError HTTPResponse :=
  match doOnce readAll result with
  | .error err => .error (.transport err)
  | .ok resp => if resp.status < 500 then .ok resp else .error (.status resp.statusText)

/-- One iteration: it returns, it stops the loop with `lastErr`, or the attempt failed. -/
inductive Iteration where
  | returns (resp : HTTPResponse)
  | refused
  | failed (err : DoError)

def iterate (orig : Option (List UInt8)) (r : Round) (idle : List Event) (st : DoState) :
    DoState × Iteration :=
  match st.allow rnd idle with
  | (false, st') => (st', .refused)
  | (true, st') =>
    match judge readAll r.result with
    | .ok resp => ((st'.send orig r.result).report rnd r.during true, .returns resp)
    | .error err => ((st'.send orig r.result).report rnd r.during false, .failed err)

def HTTPClient.finish (lastErr : DoError) : DoReturn :=
  match cl.fallback with
  | some fallback => fallback lastErr
  | none => (none, some lastErr)

/-- The loop from attempt `k` on, which `left` more may follow; `idle` is what others do
before its `Allow`. -/
def attemptLoop (orig : Option (List UInt8)) (rounds : Nat → Round) :
    Nat → Nat → List Event → DoState → DoState × DoReturn
  | 0, k, idle, st =>
    match iterate rnd readAll orig (rounds k) idle st with
    | (st', .returns resp) => (st', some resp, none)
    | (st', .refused) => (st', cl.finish .openCircuit)
    | (st', .failed err) => (st', cl.finish err)
  | left + 1, k, idle, st =>
    match iterate rnd readAll orig (rounds k) idle st with
    | (st', .returns resp) => (st', some resp, none)
    | (st', .refused) => (st', cl.finish .openCircuit)
    | (st', .failed _) =>
      match (rounds k).interrupted with
      | some err => (st', none, some (.context err))
      | none =>
        attemptLoop orig rounds left (k + 1)
          (waited (cl.pause k (rounds k).delta) (rounds (k + 1)).before) st'

def Event.isTick : Event → Bool
  | .tick _ => true
  | _ => false

/-- To a breaker that nobody else has, nothing happens but that time passes. -/
def Round.alone (r : Round) : Round :=
  { r with before := r.before.filter Event.isTick, during := r.during.filter Event.isTick }

def HTTPClient.doRequest (shared : Timed) (req : HTTPRequest) (rounds : Nat → Round) :
    DoState × DoReturn :=
  if cl.configured = false then (⟨shared, req, []⟩, none, some .notConfigured)
  else
    match ensureReplayableBody req with
    | .error err => (⟨shared, req, []⟩, none, some (.body err))
    | .ok (orig, req') =>
      if cl.breaker then
        attemptLoop rnd readAll cl orig rounds (cl.attempts - 1) 1 (rounds 1).before
          ⟨shared, req', []⟩
      else
        attemptLoop rnd readAll cl orig (fun k => (rounds k).alone) (cl.attempts - 1) 1
          (rounds 1).alone.before ⟨⟨shared.now, newBreaker 1 (some 1) second⟩, req', []⟩

end TokoApi.Resilience
