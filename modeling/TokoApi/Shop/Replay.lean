import TokoApi.Shop.Machine

/-!
# A delivery that fails is delivered again

Both inbound webhooks set a replay key by SETNX before they do anything else, and
keep it when they answer with an error. A provider repeats a delivery that was
answered with a 5xx. The repetition is handled like a first delivery exactly when
it was the SETNX itself that failed, and nobody else holds the key by then.
-/
namespace TokoApi.Shop

open Db Lib.Redis Lib.Threads Lib.Runs

/-- The same body at the same endpoint. -/
def Redelivers : Request → Request → Prop
  | .payment r, .payment r' =>
    Payment.Webhook.providerKey r = Payment.Webhook.providerKey r' ∧ r.body = r'.body
  | .courier r, .courier r' => r.courier = r'.courier ∧ r.body = r'.body
  | _, _ => False

/-- The key of a handler whose next call is the SETNX. -/
def Thread.claims : Thread → Option String
  | .payment t => if t.pc = .setNX then some t.key else none
  | .courier t => if t.pc = .setNX then some t.key else none
  | _ => none

def Thread.response : Thread → Option Response
  | .payment t =>
    match t.pc with
    | .done r => some r
    | _ => none
  | .courier t =>
    match t.pc with
    | .done r => some r
    | _ => none
  | _ => none

def replayTTL (cfg : Config) : Request → Int
  | .payment _ => cfg.payment.replayTTL
  | _ => cfg.courier.replayTTL

/-- The store as it would be had the key never been set. -/
def forget (key : String) (s : Store) : Store := { s with replay := s.replay.del key }

/-- The handler goes on as it would on a first delivery, and does not answer that
the body is a duplicate. -/
def AsFirst (cfg : Config) (j : Nat) (s : Store) (t : Thread) (key : String) : Prop :=
  shopStep cfg j s t .ok = shopStep cfg j (forget key s) t .ok ∧
    ∀ s' t', shopStep cfg j s t .ok = some (s', t') →
      ∀ r ∈ t'.response, ¬ (r.status = 409 ∧ r.code = "REPLAY")

variable {cfg : Config} {i j : Nat} {s s' : Store} {t t' : Thread} {x : Call} {key : String}

/-! ## The keys -/

theorem keys_step (h : shopStep cfg i s t x = some (s', t')) :
    s'.now = s.now ∧
      (s'.replay = s.replay ∨ ∃ ttl k, s.replay.setNX s.now ttl k = (true, s'.replay)) := by
  obtain ⟨u, u', rfl, rfl, hs⟩ | ⟨_, _, hc⟩ := step_change h
  · obtain ⟨hnow, _, hk⟩ := (Payment.step_effect hs).frame
    exact ⟨hnow, hk.imp_right fun hk => ⟨_, _, hk⟩⟩
  · cases hc.touches with
    | beside hs _ =>
      rw [hs]
      exact ⟨rfl, .inl rfl⟩
    | status | ordered => exact ⟨rfl, .inl rfl⟩
    | claimed _ hk => exact ⟨rfl, .inr ⟨_, _, hk⟩⟩

/-- The key claimed at time `T` is still there, or its time is over. -/
def Kept (T ttl : Int) (key : String) (s : Store) : Prop :=
  s.replay key = Lease.starting T ttl ∨ (0 < ttl ∧ T + ttl ≤ s.now)

theorem kept_step {T ttl : Int} (hk : Kept T ttl key s)
    (h : shopStep cfg i s t x = some (s', t')) : Kept T ttl key s' := by
  obtain ⟨hnow, hkeys⟩ := keys_step h
  obtain hk | hover := hk
  · by_cases hlive : ttl ≤ 0 ∨ s.now < T + ttl
    · left
      obtain hsame | ⟨ttl', k, hset⟩ := hkeys
      · rw [hsame, hk]
      · have hheld : (s.replay key).held s.now = true := by rw [hk]; exact starting_held hlive
        rw [setNX_kept hset hheld, hk]
    · right
      omega
  · right
    omega

theorem kept_run {T ttl : Int} {c d : State} {acts : List Label}
    (hk : Kept T ttl key c.shared) (hr : run (shopMachine cfg).step c acts = some d) :
    Kept T ttl key d.shared := by
  refine run_inv (I := fun c : State => Kept T ttl key c.shared) ?_ hk
    (meets_true c acts) hr
  intro c a d hk _ hs
  cases Machine.step_effect hs with
  | spawn r =>
    exact hk
  | act _ hl =>
    exact kept_step hk hl
  | @env e _ he =>
    cases he
    refine hk.imp_right fun hover => ⟨hover.1, ?_⟩
    have hpos : (0 : Int) ≤ e := Int.natCast_nonneg e
    show T + ttl ≤ c.shared.now + e
    omega

/-! ## The SETNX -/

def Thread.ttl (cfg : Config) : Thread → Int
  | .payment _ => cfg.payment.replayTTL
  | _ => cfg.courier.replayTTL

theorem response_done {r : Response} (h : t.response = some r) (i : Nat) (s : Store) (x : Call) :
    shopStep cfg i s t x = none := by
  cases t with
  | payment u =>
    simp only [Thread.response] at h
    split at h
    · rename_i r' hpc
      simp only [shopStep, Payment.webhookStep, hpc, Option.map_none]
    · cases h
  | courier u =>
    simp only [Thread.response] at h
    split at h
    · rename_i r' hpc
      simp only [shopStep, Shipping.webhookStep, hpc, Option.map_none]
    · cases h
  | _ => cases h

theorem claims_payment {u : Payment.Thread} (h : (Thread.payment u).claims = some key) :
    u.pc = .setNX ∧ u.key = key := by
  simp only [Thread.claims] at h
  split at h
  · rename_i hpc
    exact ⟨hpc, Option.some.inj h⟩
  · cases h

theorem claims_courier {u : Shipping.WebhookThread} (h : (Thread.courier u).claims = some key) :
    u.pc = .setNX ∧ u.key = key := by
  simp only [Thread.claims] at h
  split at h
  · rename_i hpc
    exact ⟨hpc, Option.some.inj h⟩
  · cases h

theorem claim_refused (cfg : Config) (i : Nat) (hc : t.claims = some key)
    (hh : (s.replay key).held s.now = true) :
    ∃ t', shopStep cfg i s t .ok = some (s, t') ∧
      ∃ r, t'.response = some r ∧ r.status = 409 ∧ r.code = "REPLAY" := by
  cases t with
  | payment u =>
    obtain ⟨hpc, rfl⟩ := claims_payment hc
    simp only [shopStep, Payment.webhookStep, hpc, setNX_refused hh]
    exact ⟨_, rfl, _, rfl, rfl, rfl⟩
  | courier u =>
    obtain ⟨hpc, rfl⟩ := claims_courier hc
    simp only [shopStep, Shipping.webhookStep, hpc, setNX_refused hh]
    exact ⟨_, rfl, _, rfl, rfl, rfl⟩
  | _ => cases hc

theorem payment_afterReplay_response (h : Payment.Webhook) (u : Payment.Thread)
    (v : Payment.WebhookVerifyResult) (r : Response)
    (hr : (Thread.payment (u.goto (h.afterReplay v))).response = some r) : r.status ≠ 409 := by
  unfold Payment.Webhook.afterReplay at hr
  split at hr
  · cases hr
    decide
  · cases hr

theorem courier_afterReplay_response (h : Shipping.Webhook) (u : Shipping.WebhookThread)
    (q : Shipping.WebhookRequest) (r : Response)
    (hr : (Thread.courier { u with pc := h.afterReplay q }).response = some r) :
    r.status ≠ 409 := by
  simp only [Thread.response, Shipping.Webhook.afterReplay] at hr
  split at hr
  · rename_i r' hpc
    cases hr
    split at hpc
    · cases hpc
      simp
    · split at hpc
      · cases hpc
        simp
      · split at hpc
        · cases hpc
          simp
        · cases hpc
  · cases hr

theorem claim_taken (cfg : Config) (i : Nat) (hc : t.claims = some key)
    (hh : (s.replay key).held s.now = false) :
    ∃ t', shopStep cfg i s t .ok =
        some ({ s with replay := Function.update s.replay key (Lease.starting s.now (t.ttl cfg)) }, t') ∧
      ∀ r, t'.response = some r → r.status ≠ 409 := by
  cases t with
  | payment u =>
    obtain ⟨hpc, rfl⟩ := claims_payment hc
    simp only [shopStep, Payment.webhookStep, hpc, setNX_taken hh]
    exact ⟨_, rfl, payment_afterReplay_response cfg.payment u _⟩
  | courier u =>
    obtain ⟨hpc, rfl⟩ := claims_courier hc
    simp only [shopStep, Shipping.webhookStep, hpc, setNX_taken hh]
    exact ⟨_, rfl, courier_afterReplay_response cfg.courier u _⟩
  | _ => cases hc

theorem claim_forget (hc : t.claims = some key) (hh : (s.replay key).held s.now = false) :
    shopStep cfg i s t .ok = shopStep cfg i (forget key s) t .ok := by
  cases t with
  | payment u =>
    obtain ⟨hpc, rfl⟩ := claims_payment hc
    simp only [shopStep, Payment.webhookStep, hpc, forget, setNX_del hh, setNX_taken hh]
  | courier u =>
    obtain ⟨hpc, rfl⟩ := claims_courier hc
    simp only [shopStep, Shipping.webhookStep, hpc, forget, setNX_del hh, setNX_taken hh]
  | _ => cases hc

theorem asFirst_iff (hc : t.claims = some key) :
    AsFirst cfg j s t key ↔ (s.replay key).held s.now = false := by
  constructor
  · intro hfirst
    by_contra hheld
    obtain ⟨t', hs, r, hr, hstatus⟩ := claim_refused cfg j hc (by simpa using hheld)
    exact hfirst.2 s t' hs r hr hstatus
  · intro hfree
    refine ⟨claim_forget hc hfree, fun s' t' hs r hr hstatus => ?_⟩
    obtain ⟨u, hu, hne⟩ := claim_taken cfg j hc hfree
    rw [hu] at hs
    cases hs
    exact hne r hr hstatus.1

/-! ## Deliveries -/

theorem start_payment_key {r : Payment.Request} (h : (start cfg (.payment r)).claims = some key) :
    key = cfg.payment.replayKey r := by
  obtain ⟨hpc, hkey⟩ := claims_payment h
  rw [← hkey]
  unfold Payment.Webhook.start at hpc ⊢
  split at hpc
  · cases hpc
  · split at hpc
    · cases hpc
    · cases hpc
    · rfl

theorem redelivers_claims {r r' : Request} {key' : String} (hsame : Redelivers r r')
    (h : (start cfg r).claims = some key) (h' : (start cfg r').claims = some key') :
    key' = key ∧ (start cfg r).ttl cfg = replayTTL cfg r := by
  cases r with
  | payment r =>
    cases r' with
    | payment r' =>
      refine ⟨?_, rfl⟩
      rw [start_payment_key h, start_payment_key h', Payment.Webhook.replayKey,
        Payment.Webhook.replayKey, hsame.1, hsame.2]
    | _ => exact hsame.elim
  | courier r =>
    cases r' with
    | courier r' =>
      refine ⟨?_, rfl⟩
      have hk : cfg.courier.replayKey r = key := Option.some.inj h
      have hk' : cfg.courier.replayKey r' = key' := Option.some.inj h'
      rw [← hk, ← hk', Shipping.Webhook.replayKey, Shipping.Webhook.replayKey, hsame.1, hsame.2]
    | _ => exact hsame.elim
  | _ => cases r' <;> exact hsame.elim

/-- A delivery `r` whose SETNX is the next call of thread `i` is answered, in any
interleaving, with a 5xx. A delivery of the same body within the replay time is
handled like a first one exactly when that SETNX failed and the key is free. -/
theorem retry_as_first_iff (cfg : Config) (r r' : Request) (hsame : Redelivers r r')
    (c₁ c₂ c₃ : State) (i j : Nat) (x : Call) (acts : List Label)
    (key key' : String) (hi : c₁.threads[i]? = some (start cfg r))
    (hclaim : (start cfg r).claims = some key)
    (hfirst : (shopMachine cfg).step c₁ (.act i x) = some c₂)
    (hrun : run (shopMachine cfg).step c₂ acts = some c₃)
    (hfailed : ∃ resp ∈ c₃.threads[i]?.bind Thread.response, 500 ≤ resp.status)
    (hclaim' : (start cfg r').claims = some key')
    (hwithin : c₃.shared.now < c₁.shared.now + replayTTL cfg r) :
    AsFirst cfg j c₃.shared (start cfg r') key' ↔
      (∃ err, x = .fail err) ∧ (c₃.shared.replay key').held c₃.shared.now = false := by
  obtain ⟨rfl, httl⟩ := redelivers_claims hsame hclaim hclaim'
  rw [asFirst_iff hclaim']
  refine ⟨fun hfree => ⟨?_, hfree⟩, fun h => h.2⟩
  cases x with
  | fail err => exact ⟨err, rfl⟩
  | ok =>
    exfalso
    obtain ⟨t, s', t', ht, hl, rfl⟩ := Machine.step_act hfirst
    obtain rfl : start cfg r = t := Option.some.inj (hi.symm.trans ht)
    have hlt : i < c₁.threads.length := (List.getElem?_eq_some_iff.mp hi).1
    cases hheld : (c₁.shared.replay key').held c₁.shared.now with
    | true =>
      -- the first delivery was itself a duplicate, and its answer is not a 5xx
      obtain ⟨u, hu, resp, hresp, hstatus, _⟩ := claim_refused cfg i hclaim hheld
      rw [show (shopMachine cfg).lstep = shopStep cfg from rfl, hu] at hl
      cases hl
      have hstay := Machine.stuck_stays (M := shopMachine cfg)
        (fun s x => response_done hresp i s x) (List.getElem?_set_self hlt) hrun
      obtain ⟨resp', hresp', h5⟩ := hfailed
      rw [hstay, Option.bind_some, hresp] at hresp'
      cases hresp'
      omega
    | false =>
      obtain ⟨u, hu, _⟩ := claim_taken cfg i hclaim hheld
      rw [show (shopMachine cfg).lstep = shopStep cfg from rfl, hu, httl] at hl
      cases hl
      have hkept : Kept c₁.shared.now (replayTTL cfg r) key' c₃.shared := by
        refine kept_run (.inl ?_) hrun
        exact Function.update_self _ _ _
      obtain hk | hover := hkept
      · rw [hk, starting_held (.inr hwithin)] at hfree
        cases hfree
      · omega

/-! ## Deliveries to one shop -/

def courierNotice : Request :=
  .courier ⟨"jne", "", fun name => if name = "orderId" then "7" else "shipped"⟩

/-- The SETNX of the first delivery fails, and the second one is processed. -/
theorem retried_after_setnx_failed :
    ∃ c, run (shopMachine plainShop).step ⟨openOrder, [start plainShop paidNotice]⟩
        [.act 0 (.fail "connection refused"), .env 60] = some c ∧
      AsFirst plainShop 1 c.shared (start plainShop paidNotice) "wh:plain:PAID" := by
  refine reaches_imp (P := fun c : State =>
      (∃ resp ∈ c.threads[0]?.bind Thread.response, 500 ≤ resp.status) ∧
      c.shared.now < 0 + 3600 ∧ (c.shared.replay "wh:plain:PAID").held c.shared.now = false)
    (by decide +kernel) fun c₃ hrun ⟨hfailed, hnow, hfree⟩ => ?_
  obtain ⟨c₂, hfirst, hrest⟩ := run_cons hrun
  exact (retry_as_first_iff plainShop paidNotice paidNotice ⟨rfl, rfl⟩ _ c₂ c₃ 0 1 _
    [.env 60] "wh:plain:PAID" "wh:plain:PAID" rfl (by decide) hfirst hrest hfailed (by decide)
    hnow).mpr ⟨⟨_, rfl⟩, hfree⟩

/-- A payment whose transaction cannot be started and an event whose shipment
cannot be read are lost: their second deliveries are duplicates. -/
theorem retried_is_replay :
    ((run (shopMachine plainShop).step ⟨openOrder, []⟩
        [.spawn paidNotice, .act 0 .ok, .act 0 (.fail "timeout"), .env 60, .spawn paidNotice,
          .act 1 .ok]).map fun c => c.threads.map fun t => t.response.map fun r => (r.status, r.code)) =
      some [some (500, "TX_ERROR"), some (409, "REPLAY")] ∧
    ((run (shopMachine plainShop).step ⟨openOrder, []⟩
        [.spawn courierNotice, .act 0 .ok, .act 0 (.fail "timeout"), .env 60, .spawn courierNotice,
          .act 1 .ok]).map fun c => c.threads.map fun t => t.response.map fun r => (r.status, r.code)) =
      some [some (500, "INTERNAL"), some (409, "REPLAY")] := by
  decide +kernel

end TokoApi.Shop
