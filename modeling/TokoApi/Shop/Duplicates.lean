import TokoApi.Shop.Replay

/-!
# A callback that is dropped as a duplicate

The courier webhook identifies a callback by the courier and the hash of the body.
What it decodes comes from the body and, field by field, from the query string where
the body says nothing. So a callback that is answered REPLAY repeats an accepted one
as far as the body goes, and carries nothing new exactly when the query strings agree
on what the body leaves open.
-/
namespace TokoApi.Shop

open Db Lib.Redis Lib.Text Lib.Threads Lib.Runs Shipping

/-! ## What a callback says -/

/-- The event in a callback. The tracking number is decoded as well, and not used. -/
structure Notice where
  orderID : String
  externalStatus : String
  description : Option String
  location : Option String
  occurredAt : Option Int
  deriving DecidableEq

def noticeOf (p : WebhookPayload) : Notice :=
  ⟨p.orderID, p.externalStatus, p.description, p.location, p.occurredAt⟩

def decoded (h : Shipping.Webhook) (r : WebhookRequest) : Option Notice :=
  (h.decodeWebhookPayload r).toOption.map noticeOf

def stated (h : Shipping.Webhook) (body : String) : WebhookPayload :=
  (if body = "" then none else h.unmarshal body).getD ⟨"", "", "", none, none, none⟩

def queryText (query : String → String) (name : String) : Option String :=
  optionalText (trimSpace (query name))

/-- The query strings give the same values to the fields that the body leaves open. -/
structure Agree (h : Shipping.Webhook) (p : WebhookPayload) (q q' : String → String) : Prop where
  orderID : p.orderID = "" → q "orderId" = q' "orderId"
  status : p.externalStatus = "" → q "status" = q' "status"
  description : p.description = none → queryText q "description" = queryText q' "description"
  location : p.location = none → queryText q "location" = queryText q' "location"
  occurredAt : p.occurredAt = none →
    (queryText q "occurredAt").bind h.parseRFC3339 = (queryText q' "occurredAt").bind h.parseRFC3339

/-- Neither the body nor the query string has the order or the status. -/
abbrev Incomplete (p : WebhookPayload) (q : String → String) : Prop :=
  (p.orderID = "" ∧ q "orderId" = "") ∨ (p.externalStatus = "" ∧ q "status" = "")

variable {h : Shipping.Webhook} {r r' : WebhookRequest}

/-- The event once the query string has been consulted. -/
def filled (h : Shipping.Webhook) (p : WebhookPayload) (q : String → String) : Notice where
  orderID := if p.orderID = "" then q "orderId" else p.orderID
  externalStatus := if p.externalStatus = "" then q "status" else p.externalStatus
  description := p.description.or (queryText q "description")
  location := p.location.or (queryText q "location")
  occurredAt := p.occurredAt.or ((queryText q "occurredAt").bind h.parseRFC3339)

theorem ite_empty_eq_iff {a b c : String} :
    (if a = "" then b else a) = (if a = "" then c else a) ↔ (a = "" → b = c) := by
  by_cases ha : a = "" <;> simp [ha]

theorem or_eq_or_iff {α : Type} {a b c : Option α} : a.or b = a.or c ↔ (a = none → b = c) := by
  cases a <;> simp

theorem filled_eq_iff {p : WebhookPayload} {q q' : String → String} :
    filled h p q = filled h p q' ↔ Agree h p q q' := by
  simp only [filled, Notice.mk.injEq, ite_empty_eq_iff, or_eq_or_iff]
  exact ⟨fun ⟨ho, hs, hd, hl, ht⟩ => ⟨ho, hs, hd, hl, ht⟩,
    fun ⟨ho, hs, hd, hl, ht⟩ => ⟨ho, hs, hd, hl, ht⟩⟩

theorem ite_empty_eq_empty_iff {a b : String} :
    (if a = "" then b else a) = "" ↔ a = "" ∧ b = "" := by
  by_cases ha : a = "" <;> simp [ha]

theorem decoded_eq (h : Shipping.Webhook) (r : WebhookRequest) :
    decoded h r = if Incomplete (stated h r.body) r.query then none
      else some (filled h (stated h r.body) r.query) := by
  have hmissing : Incomplete (stated h r.body) r.query ↔
      (filled h (stated h r.body) r.query).orderID = "" ∨
        (filled h (stated h r.body) r.query).externalStatus = "" := by
    simp only [Incomplete, filled, ite_empty_eq_empty_iff]
  simp only [hmissing]
  unfold decoded Webhook.decodeWebhookPayload
  show Option.map noticeOf (Except.toOption (if (filled h (stated h r.body) r.query).orderID = ""
    then _ else if (filled h (stated h r.body) r.query).externalStatus = "" then _ else _)) = _
  by_cases ho : (filled h (stated h r.body) r.query).orderID = ""
  · simp [ho, Except.toOption]
  · by_cases hs : (filled h (stated h r.body) r.query).externalStatus = ""
    · simp [ho, hs, Except.toOption]
    · simp only [ho, hs, if_false, or_self]
      rfl

theorem decoded_eq_iff (hbody : r.body = r'.body) :
    decoded h r = decoded h r' ↔ Agree h (stated h r.body) r.query r'.query ∨
      (Incomplete (stated h r.body) r.query ∧ Incomplete (stated h r.body) r'.query) := by
  rw [decoded_eq, decoded_eq, ← hbody]
  by_cases hi : Incomplete (stated h r.body) r.query <;>
    by_cases hi' : Incomplete (stated h r.body) r'.query
  · simp [hi, hi']
  · have hne : ¬ Agree h (stated h r.body) r.query r'.query := by
      intro ha
      apply hi'
      exact hi.imp (fun ⟨ho, hq⟩ => ⟨ho, (ha.orderID ho).symm.trans hq⟩)
        (fun ⟨hs, hq⟩ => ⟨hs, (ha.status hs).symm.trans hq⟩)
    simp [hi, hi', hne]
  · have hne : ¬ Agree h (stated h r.body) r.query r'.query := by
      intro ha
      apply hi
      exact hi'.imp (fun ⟨ho, hq⟩ => ⟨ho, (ha.orderID ho).trans hq⟩)
        (fun ⟨hs, hq⟩ => ⟨hs, (ha.status hs).trans hq⟩)
    simp [hi, hi', hne]
  · simp [hi, hi', filled_eq_iff]

/-! ## The keys of the couriers -/

section

variable {cfg : Config} {s s' : Store} {t t' : Thread} {x : Call} {i : Nat}
  {u u' : WebhookThread}

theorem payment_key_ne (u : Payment.Request) (r : WebhookRequest) :
    cfg.payment.replayKey u ≠ cfg.courier.replayKey r := by
  intro he
  have hchars := congrArg String.toList he
  simp [Payment.Webhook.replayKey, Webhook.replayKey] at hchars

def KeyOf (cfg : Config) : Thread → Prop
  | .payment u => ∀ r, u.key ≠ cfg.courier.replayKey r
  | .courier u => u.key = cfg.courier.replayKey u.request
  | _ => True

theorem keyOf_start (r : Request) : KeyOf cfg (start cfg r) := by
  cases r with
  | payment p =>
    intro r
    have hempty : ("" : String) ≠ cfg.courier.replayKey r := by
      intro he
      have hchars := congrArg String.toList he
      simp [Webhook.replayKey] at hchars
    show (cfg.payment.start p).key ≠ _
    unfold Payment.Webhook.start
    split
    · exact hempty
    · split
      · exact hempty
      · exact hempty
      · exact payment_key_ne p r
  | courier p => rfl
  | _ => trivial

theorem courier_key (hs : webhookStep cfg.courier i s u x = some (s', u')) :
    u'.key = u.key ∧ u'.request = u.request := by
  unfold webhookStep at hs
  split at hs
  · cases hs
    exact ⟨rfl, rfl⟩
  · split at hs <;> cases hs <;> exact ⟨rfl, rfl⟩
  · obtain ⟨p, _, he⟩ := Option.map_eq_some_iff.mp hs
    cases he
    exact ⟨rfl, rfl⟩
  · cases hs

theorem keyOf_step (hk : KeyOf cfg t) (h : shopStep cfg i s t x = some (s', t')) :
    KeyOf cfg t' := by
  cases t <;> obtain ⟨u', hs, rfl⟩ := lifted_inv h
  case payment u =>
    intro r
    show u'.key ≠ _
    rw [(Payment.webhookStep_executes hs).key]
    exact hk r
  case courier u =>
    obtain ⟨hkey, hreq⟩ := courier_key hs
    show u'.key = cfg.courier.replayKey u'.request
    rw [hkey, hreq]
    exact hk
  all_goals trivial

def Sets (cfg : Config) (s : Store) (u : WebhookThread) (x : Call) (r : WebhookRequest) : Prop :=
  u.pc = .setNX ∧ x = .ok ∧ (s.replay u.key).held s.now = false ∧ u.key = cfg.courier.replayKey r

theorem replay_courier (r : WebhookRequest)
    (hs : webhookStep cfg.courier i s u x = some (s', u')) :
    s'.replay (cfg.courier.replayKey r) = s.replay (cfg.courier.replayKey r) ∨
      (Sets cfg s u x r ∧
        s'.replay (cfg.courier.replayKey r) = Lease.starting s.now cfg.courier.replayTTL) := by
  unfold webhookStep at hs
  split at hs
  · cases hs
    exact .inl rfl
  · rename_i hpc
    split at hs
    · cases hs
      exact .inl rfl
    · rename_i keys hk
      cases hs
      obtain ⟨hfree, rfl⟩ := taken_inv hk
      by_cases hkey : u.key = cfg.courier.replayKey r
      · exact .inr ⟨⟨hpc, rfl, hfree, hkey⟩, by rw [← hkey]; exact Function.update_self _ _ _⟩
      · exact .inl (Function.update_of_ne (Ne.symm hkey) _ _)
  · obtain ⟨⟨s₁, pc'⟩, hl, he⟩ := Option.map_eq_some_iff.mp hs
    cases he
    obtain hf | ⟨target, b, hu⟩ := eventStep_inv hl
    · rw [hf]
      exact .inl rfl
    · obtain ⟨rfl, _⟩ | ⟨o, _, _, rfl⟩ := updateOrderStatusIfAllowed_inv hu <;> exact .inl rfl
  · cases hs

theorem replay_step (r : WebhookRequest) (hk : KeyOf cfg t)
    (h : shopStep cfg i s t x = some (s', t')) :
    s'.replay (cfg.courier.replayKey r) = s.replay (cfg.courier.replayKey r) ∨
      ∃ u, t = .courier u ∧ Sets cfg s u x r ∧
        s'.replay (cfg.courier.replayKey r) = Lease.starting s.now cfg.courier.replayTTL := by
  cases t with
  | courier u =>
    obtain ⟨u', hs, rfl⟩ := lifted_inv h
    exact (replay_courier r hs).imp_right fun hset => ⟨u, rfl, hset⟩
  | payment u =>
    obtain ⟨u', hs, rfl⟩ := lifted_inv h
    obtain hsame | hset := (Payment.step_effect hs).frame.replay
    · rw [hsame]
      exact .inl rfl
    · obtain ⟨_, hset⟩ := taken_inv hset
      rw [hset]
      exact .inl (Function.update_of_ne (Ne.symm (hk r)) _ _)
  | _ =>
    obtain ⟨u, _, hu, _⟩ | ⟨_, _, hc⟩ := step_change h
    · cases hu
    · left
      cases hc.touches with
      | beside hs _ => rw [hs]
      | status | ordered => rfl
      | claimed ht _ => cases ht

theorem refused_inv {resp : Response}
    (hs : webhookStep cfg.courier i s u x = some (s', u')) (hdone : u'.pc = .done resp)
    (hcode : resp.code = "REPLAY") : (s.replay u.key).held s.now = true := by
  unfold webhookStep at hs
  split at hs
  · cases hs
    cases hdone
    simp at hcode
  · split at hs
    · rename_i hk
      exact held_of_refused hk
    · cases hs
      simp only [Webhook.afterReplay] at hdone
      split at hdone
      · cases hdone
        simp at hcode
      · split at hdone
        · cases hdone
          simp at hcode
        · split at hdone <;> cases hdone
          simp at hcode
  · obtain ⟨⟨s₁, pc'⟩, _, he⟩ := Option.map_eq_some_iff.mp hs
    cases he
    cases pc' <;> cases hdone
    rename_i result
    unfold eventResponse at hcode
    split at hcode <;> simp [noContent] at hcode
  · cases hs

end

/-! ## Accepted callbacks -/

/-- The callback `first` has set its key at time `at_`, as a step of the run. -/
def Accepted (cfg : Config) (s : Store) (acts : List Label) (first : WebhookThread) (at_ : Int) :
    Prop :=
  ∃ n c i, run (shopMachine cfg).step ⟨s, []⟩ (acts.take n) = some c ∧
    acts[n]? = some (.act i .ok) ∧ c.threads[i]? = some (.courier first) ∧ first.pc = .setNX ∧
    (c.shared.replay first.key).held c.shared.now = false ∧ c.shared.now = at_

/-- The replay time of the callback `first`, whose key is that of `t`, is not over. -/
def Covers (cfg : Config) (s : Store) (acts : List Label) (now : Int) (first t : WebhookThread) :
    Prop :=
  ∃ at_, Accepted cfg s acts first at_ ∧ first.key = t.key ∧
    (cfg.courier.replayTTL ≤ 0 ∨ now < at_ + cfg.courier.replayTTL)

/-- Each thread has the key of its request, and each key of a courier was set by a callback
of the run. -/
structure Leased (cfg : Config) (s : Store) (acts : List Label) (c : State) : Prop where
  keyed : ∀ (i : Nat) (t : Thread), c.threads[i]? = some t → KeyOf cfg t
  leased : ∀ r, c.shared.replay (cfg.courier.replayKey r) = .absent ∨
    ∃ first at_, Accepted cfg s acts first at_ ∧ first.key = cfg.courier.replayKey r ∧
      c.shared.replay (cfg.courier.replayKey r) = Lease.starting at_ cfg.courier.replayTTL

variable {cfg : Config} {s : Store} {acts : List Label} {c d : State}

theorem leased_step {l : Label} (hc : Leased cfg s acts c)
    (hl : ∃ n, run (shopMachine cfg).step ⟨s, []⟩ (acts.take n) = some c ∧ acts[n]? = some l)
    (hstep : (shopMachine cfg).step c l = some d) : Leased cfg s acts d := by
  obtain ⟨n, hn, hnl⟩ := hl
  have hkeyed : ∀ (i : Nat) (t : Thread), d.threads[i]? = some t → KeyOf cfg t :=
    (guarded_step (I := fun _ _ => True) (A := fun _ _ t => KeyOf cfg t) ⟨trivial, hc.keyed⟩ hstep
      (fun r _ => ⟨trivial, keyOf_start r⟩)
      (fun i x t s' t' _ ht hs =>
        ⟨trivial, keyOf_step (hc.keyed i t ht) hs, fun j u _ hu => hc.keyed j u hu⟩)
      (fun e s' _ => ⟨trivial, hc.keyed⟩)).2
  refine ⟨hkeyed, ?_⟩
  intro r
  cases Machine.step_effect hstep with
  | spawn q =>
    exact hc.leased r
  | @act i _ t s' _ ht hs =>
    obtain hsame | ⟨u, rfl, ⟨hpc, rfl, hfree, hkey⟩, hnew⟩ := replay_step r (hc.keyed i t ht) hs
    · show s'.replay _ = _ ∨ _
      rw [hsame]
      exact hc.leased r
    · exact .inr ⟨u, c.shared.now, ⟨n, c, i, hn, hnl, ht, hpc, hfree, rfl⟩, hkey, hnew⟩
  | env he =>
    cases he
    exact hc.leased r

theorem leased_run (hs : s.replay = .empty) (hr : run (shopMachine cfg).step ⟨s, []⟩ acts = some c) :
    Leased cfg s acts c := by
  refine run_inv (fun c l d hc hl hstep => leased_step hc hl hstep) ⟨?_, ?_⟩
    ((meets_iff hr).mpr fun n u l hu hl => ⟨n, hu, hl⟩) hr
  · intro i t ht
    simp at ht
  · intro r
    exact .inl (congrFun hs _)

theorem Accepted.key {first : WebhookThread} {at_ : Int} (hs : s.replay = .empty)
    (h : Accepted cfg s acts first at_) :
    first.key = cfg.courier.replayKey first.request := by
  obtain ⟨n, u, i, hu, _, hi, _⟩ := h
  exact (leased_run hs hu).keyed i _ hi

theorem body_of_key (hsha : Function.Injective cfg.courier.sha256Hex)
    (hcourier : r.courier = r'.courier)
    (hkey : cfg.courier.replayKey r = cfg.courier.replayKey r') : r.body = r'.body := by
  apply hsha
  simp only [Webhook.replayKey, hcourier] at hkey
  exact String.append_right_inj _ |>.mp hkey

/-- In every interleaving of the shop, a callback that is answered REPLAY has the key of one
that was accepted within the replay time. Where that one is of the same courier it has the
same body, and the two decode to the same event exactly when the query strings agree on what
the body leaves open, or neither names an order and a status. -/
theorem duplicate_decodes_same_iff (cfg : Config)
    (hsha : Function.Injective cfg.courier.sha256Hex) (s : Store) (hs : s.replay = .empty)
    (acts : List Label) (c d : State) (hr : run (shopMachine cfg).step ⟨s, []⟩ acts = some c)
    (j : Nat) (x : Call) (t : WebhookThread) (hj : c.threads[j]? = some (.courier t))
    (hd : (shopMachine cfg).step c (.act j x) = some d)
    (hdup : ∃ resp ∈ d.threads[j]?.bind Thread.response, resp.code = "REPLAY") :
    (∃ first, Covers cfg s acts c.shared.now first t) ∧
      ∀ first, Covers cfg s acts c.shared.now first t →
        first.request.courier = t.request.courier →
        first.request.body = t.request.body ∧
        (decoded cfg.courier first.request = decoded cfg.courier t.request ↔
          Agree cfg.courier (stated cfg.courier t.request.body) first.request.query t.request.query ∨
            (Incomplete (stated cfg.courier t.request.body) first.request.query ∧
              Incomplete (stated cfg.courier t.request.body) t.request.query)) := by
  have hheld := leased_run hs hr
  have hkey : t.key = cfg.courier.replayKey t.request := hheld.keyed j _ hj
  have hrefused : (c.shared.replay t.key).held c.shared.now = true := by
    obtain ⟨t₀, s', t', ht, hl, rfl⟩ := Machine.step_act hd
    obtain rfl : .courier t = t₀ := Option.some.inj (hj.symm.trans ht)
    obtain ⟨u', hstep, rfl⟩ := lifted_inv hl
    have hlt : j < c.threads.length := (List.getElem?_eq_some_iff.mp hj).1
    obtain ⟨resp, hresp, hcode⟩ := hdup
    rw [List.getElem?_set_self hlt] at hresp
    simp only [Option.bind_some, Thread.response, Option.mem_def] at hresp
    split at hresp
    · rename_i hdone
      cases hresp
      exact refused_inv hstep hdone hcode
    · cases hresp
  refine ⟨?_, ?_⟩
  · obtain habsent | ⟨first, at_, hacc, hfirst, hlease⟩ := hheld.leased t.request
    · rw [hkey, habsent] at hrefused
      cases hrefused
    · refine ⟨first, at_, hacc, hfirst.trans hkey.symm, ?_⟩
      rw [hkey, hlease] at hrefused
      exact held_starting_iff.mp hrefused
  · rintro first ⟨at_, hacc, hsame, _⟩ hcourier
    have hbody : first.request.body = t.request.body := by
      apply body_of_key hsha hcourier
      rw [← hacc.key hs, ← hkey, hsame]
    refine ⟨hbody, ?_⟩
    rw [← hbody]
    exact decoded_eq_iff hbody

/-! ## Callbacks without a body -/

/-- A callback of the courier "jne" that has everything in the query string. -/
def callback (status : String) : WebhookRequest :=
  ⟨"jne", "", fun name => if name = "orderId" then "7" else if name = "status" then status else ""⟩

/-- Both callbacks arrive, the second a minute after the first has been accepted. -/
def twoCallbacks (first second : String) : List Label :=
  [.spawn (.courier (callback first)), .act 0 .ok, .env 60, .spawn (.courier (callback second))]

def answers (c : State) : List (Option String) := c.threads.map fun t => t.response.map (·.code)

/-- A courier that sends its callback again. -/
theorem repeated_callback_same :
    ∃ c d, run (shopMachine plainShop).step ⟨openOrder, []⟩ (twoCallbacks "shipped" "shipped") = some c ∧
      (shopMachine plainShop).step c (.act 1 .ok) = some d ∧ answers d = [none, some "REPLAY"] ∧
      ∃ first, Covers plainShop openOrder (twoCallbacks "shipped" "shipped") c.shared.now first
        (plainShop.courier.start (callback "shipped")) := by
  obtain ⟨d, hd, hans⟩ := reaches (P := fun d => answers d = [none, some "REPLAY"])
    (o := run (shopMachine plainShop).step ⟨openOrder, []⟩
      (twoCallbacks "shipped" "shipped" ++ [.act 1 .ok])) (by decide +kernel)
  obtain ⟨c, hc, hlast⟩ := run_append hd
  obtain ⟨d', hstep, hd'⟩ := run_cons hlast
  cases hd'
  have hsecond : (run (shopMachine plainShop).step ⟨openOrder, []⟩
      (twoCallbacks "shipped" "shipped")).bind (fun c => c.threads[1]?) =
      some (.courier (plainShop.courier.start (callback "shipped"))) := rfl
  rw [hc] at hsecond
  refine ⟨c, d, hc, hstep, hans, ?_⟩
  refine (duplicate_decodes_same_iff plainShop Function.injective_id openOrder rfl _ c d hc 1 .ok _
    hsecond hstep ?_).1
  have hcode : (d.threads[1]?.bind Thread.response).map (·.code) = some "REPLAY" := by
    have hanswer := congrArg (fun l => l[1]?) hans
    simp only [answers, List.getElem?_map] at hanswer
    cases ht : d.threads[1]? with
    | none => simp [ht] at hanswer
    | some t => simpa [ht] using hanswer
  exact Option.map_eq_some_iff.mp hcode

/-- The first callback reports SHIPPED and the second one DELIVERED; the second is dropped. -/
theorem delivered_dropped_as_duplicate :
    ((run (shopMachine plainShop).step ⟨openOrder, []⟩
        (twoCallbacks "shipped" "delivered" ++ [.act 1 .ok])).map answers) =
      some [none, some "REPLAY"] ∧
    decoded plainShop.courier (callback "shipped") = some ⟨"7", "shipped", none, none, none⟩ ∧
    decoded plainShop.courier (callback "delivered") = some ⟨"7", "delivered", none, none, none⟩ := by
  decide +kernel

end TokoApi.Shop
