import OpenWA.Budget.InflightBodyBudget
import Mathlib.Algebra.Order.BigOperators.Group.List
import Mathlib.Algebra.Order.Group.Int
import Mathlib.Algebra.Ring.Int.Defs

/-!
This module contains the balance of the body budget: its counters are the sums of the reservations of
the live requests, within their caps, and each reservation is given back once.
-/

namespace OpenWA.Budget

open Js Async InflightBodyBudget

/-- The reservation of a live request. -/
def Request.held (q : Request) : Int :=
  match q with
  | .refused _ => 0
  | .admitted r => if r.released then 0 else r.reserved

def Request.heldBy (clientKey : Text) (q : Request) : Int :=
  match q with
  | .refused _ => 0
  | .admitted r => if r.clientKey = clientKey then Request.held (.admitted r) else 0

structure Balanced (options : Options) (b : InflightBodyBudget) : Prop where
  total : b.currentBytes = (b.requests.map Request.held).sum
  perClient : ∀ clientKey, b.clientBytes clientKey = (b.requests.map (Request.heldBy clientKey)).sum
  budget : b.currentBytes ≤ options.budgetBytes
  share : ∀ clientKey, b.clientBytes clientKey ≤ options.perClientCap
  /-- A reservation is given back once, or it is still held. -/
  once : ∀ r, .admitted r ∈ b.requests → r.releases = if r.released then 1 else 0
  /-- A terminal event gives the reservation back. -/
  ended : ∀ r, .admitted r ∈ b.requests → r.terminated = true → r.released = true

section Sums

theorem sum_map_set {α : Type} (f : α → Int) {l : List α} {i : Nat} {x : α} (h : l[i]? = some x)
    (y : α) : ((l.set i y).map f).sum = (l.map f).sum + (f y - f x) := by
  induction l generalizing i with
  | nil => simp at h
  | cons a l ih =>
    cases i with
    | zero =>
      simp only [List.getElem?_cons_zero, Option.some.injEq] at h
      subst h
      simp only [List.set_cons_zero, List.map_cons, List.sum_cons]
      omega
    | succ i =>
      simp only [List.getElem?_cons_succ] at h
      simp only [List.set_cons_succ, List.map_cons, List.sum_cons, ih h]
      omega

theorem le_sum_map {α : Type} (f : α → Int) {l : List α} {x : α} (hf : ∀ a ∈ l, 0 ≤ f a)
    (h : x ∈ l) : f x ≤ (l.map f).sum := by
  apply List.single_le_sum
  . intro v hv
    rcases List.mem_map.mp hv with ⟨a, ha, rfl⟩
    exact hf a ha
  . exact List.mem_map_of_mem h

end Sums

/-- What holds of the variables of each admitted request. -/
structure Sane (r : Admitted) : Prop where
  nonneg : 0 ≤ r.reserved
  tracked : r.mapAtCapacity = false
  armed : r.stallTimer = true → r.released = false
  once : r.releases = if r.released then 1 else 0
  ended : r.terminated = true → r.released = true

/-- The counters follow the reservations, within their caps or not. -/
structure Ledger (b : InflightBodyBudget) : Prop where
  total : b.currentBytes = (b.requests.map Request.held).sum
  perClient : ∀ clientKey, b.clientBytes clientKey = (b.requests.map (Request.heldBy clientKey)).sum
  sane : ∀ r, .admitted r ∈ b.requests → Sane r

section Requests

variable {b b' : InflightBodyBudget} {i : Nat} {r r₀ : Admitted}

theorem heldBy_nonneg (hs : ∀ r, .admitted r ∈ b.requests → Sane r) (clientKey : Text) :
    ∀ q ∈ b.requests, 0 ≤ Request.heldBy clientKey q := by
  intro q hq
  unfold Request.heldBy
  split
  . exact Int.le_refl 0
  . next r =>
    have := (hs r hq).nonneg
    unfold Request.held
    dsimp only
    split
    . split <;> omega
    . exact Int.le_refl 0

theorem Ledger.reserved_le (hl : Ledger b) (hget : b.requests[i]? = some (.admitted r))
    (hlive : r.released = false) : r.reserved ≤ b.clientBytes r.clientKey := by
  rw [hl.perClient]
  have := le_sum_map (Request.heldBy r.clientKey) (heldBy_nonneg hl.sane r.clientKey)
    (List.mem_of_getElem? hget)
  simpa [Request.heldBy, Request.held, hlive] using this

theorem Ledger.change (hl : Ledger b) (hget : b.requests[i]? = some (.admitted r₀)) (hr : Sane r)
    (hkey : r.clientKey = r₀.clientKey)
    (hrequests : b'.requests = b.requests.set i (.admitted r))
    (htotal : b'.currentBytes =
      b.currentBytes + (Request.held (.admitted r) - Request.held (.admitted r₀)))
    (hclient : ∀ clientKey, b'.clientBytes clientKey = b.clientBytes clientKey +
      if clientKey = r₀.clientKey then Request.held (.admitted r) - Request.held (.admitted r₀)
      else 0) :
    Ledger b' where
  total := by rw [htotal, hrequests, sum_map_set _ hget, hl.total]
  perClient := by
    intro clientKey
    rw [hclient, hrequests, sum_map_set _ hget, hl.perClient]
    unfold Request.heldBy
    dsimp only
    rw [hkey]
    by_cases hk : clientKey = r₀.clientKey
    . simp [hk]
    . simp [hk, Ne.symm hk]
  sane := by
    intro r' hr'
    rw [hrequests] at hr'
    rcases List.mem_or_eq_of_mem_set hr' with hmem | heq
    . exact hl.sane r' hmem
    . rw [Request.admitted.injEq] at heq
      exact heq ▸ hr

theorem Ledger.write (hl : Ledger b) (hget : b.requests[i]? = some (.admitted r₀)) (hr : Sane r)
    (hkey : r.clientKey = r₀.clientKey)
    (hheld : Request.held (.admitted r) = Request.held (.admitted r₀)) : Ledger (b.write i r) := by
  apply hl.change hget hr hkey rfl
  . rw [hheld, Int.sub_self, Int.add_zero]
    rfl
  . intro clientKey
    rw [hheld, Int.sub_self, ite_self, Int.add_zero]
    rfl

end Requests

section Release

variable {b : InflightBodyBudget} {i : Nat} {r r₀ : Admitted}

/-- The two closures agree on what a release reads. -/
structure SameReservation (r r₀ : Admitted) : Prop where
  clientKey : r.clientKey = r₀.clientKey
  mapAtCapacity : r.mapAtCapacity = r₀.mapAtCapacity
  reserved : r.reserved = r₀.reserved
  released : r.released = r₀.released
  releases : r.releases = r₀.releases

theorem currentBytes_release (hlive : r.released = false) :
    (b.release i r).currentBytes = b.currentBytes - r.reserved := by
  unfold InflightBodyBudget.release
  rw [hlive]
  rfl

theorem clientBytes_release (hl : Ledger b) (hget : b.requests[i]? = some (.admitted r₀))
    (hsame : SameReservation r r₀) (hlive : r.released = false) (clientKey : Text) :
    (b.release i r).clientBytes clientKey =
      b.clientBytes clientKey - if clientKey = r.clientKey then r.reserved else 0 := by
  have hsane := hl.sane r₀ (List.mem_of_getElem? hget)
  have hcover := hl.reserved_le hget (hsame.released ▸ hlive)
  rw [← hsame.clientKey, ← hsame.reserved] at hcover
  have hnonneg : 0 ≤ r.reserved := hsame.reserved ▸ hsane.nonneg
  have hbusy : (b.clientInFlight.get? r.clientKey).getD r.reserved - r.reserved =
      b.clientBytes r.clientKey - r.reserved := by
    unfold clientBytes at hcover ⊢
    cases hcount : b.clientInFlight.get? r.clientKey with
    | none =>
      rw [hcount] at hcover
      simp only [Option.getD_none] at hcover ⊢
      omega
    | some busy => rfl
  have htracked : r.mapAtCapacity = false := hsame.mapAtCapacity ▸ hsane.tracked
  unfold InflightBodyBudget.release
  rw [hlive, htracked]
  simp only [Bool.false_eq_true, if_false]
  rw [hbusy]
  unfold clientBytes InflightBodyBudget.write
  dsimp only
  split
  . rw [Map.get?_set]
    split
    . next heq =>
      subst heq
      rfl
    . rw [Int.sub_zero]
  . next hzero =>
    rw [Map.get?_delete]
    split
    . next heq =>
      subst heq
      unfold clientBytes at hcover
      simp only [Option.getD_none]
      omega
    . rw [Int.sub_zero]

theorem Ledger.release (hl : Ledger b) (hget : b.requests[i]? = some (.admitted r₀))
    (hsame : SameReservation r r₀) (hlive : r.released = false) : Ledger (b.release i r) := by
  have hsane := hl.sane r₀ (List.mem_of_getElem? hget)
  have hlive₀ : r₀.released = false := hsame.released ▸ hlive
  let r' := { r with released := true, stallTimer := false, releases := r.releases + 1 }
  have hsane' : Sane r' := by
    refine ⟨?_, ?_, ?_, ?_, ?_⟩
    . exact hsame.reserved ▸ hsane.nonneg
    . exact hsame.mapAtCapacity ▸ hsane.tracked
    . intro h
      contradiction
    . have := hsane.once
      rw [hlive₀, ← hsame.releases] at this
      simp only [r', this, Bool.false_eq_true, if_false, if_true, Nat.zero_add]
    . exact fun _ => rfl
  have hheld : Request.held (.admitted r') = 0 := rfl
  have hheld₀ : Request.held (.admitted r₀) = r.reserved := by
    simp [Request.held, hlive₀, hsame.reserved]
  refine hl.change hget hsane' hsame.clientKey ?_ ?_ ?_
  . unfold InflightBodyBudget.release
    rw [hlive]
    rfl
  . rw [currentBytes_release hlive, hheld, hheld₀]
    omega
  . intro clientKey
    rw [clientBytes_release hl hget hsame hlive, hheld, hheld₀, hsame.clientKey]
    split <;> omega

end Release

/-- The counters are within their caps. -/
structure Capped (options : Options) (b : InflightBodyBudget) : Prop where
  budget : b.currentBytes ≤ options.budgetBytes
  share : ∀ clientKey, b.clientBytes clientKey ≤ options.perClientCap

structure Inv (options : Options) (b : InflightBodyBudget) : Prop where
  ledger : Ledger b
  capped : Capped options b

section Steps

variable {options : Options} {b : InflightBodyBudget} {i : Nat} {r r₀ : Admitted}

theorem Inv.release (hi : Inv options b) (hget : b.requests[i]? = some (.admitted r₀))
    (hsame : SameReservation r r₀) (hlive : r.released = false) : Inv options (b.release i r) where
  ledger := hi.ledger.release hget hsame hlive
  capped := by
    have hnonneg := (hi.ledger.sane r₀ (List.mem_of_getElem? hget)).nonneg
    rw [← hsame.reserved] at hnonneg
    refine ⟨?_, fun clientKey => ?_⟩
    . rw [currentBytes_release hlive]
      have := hi.capped.budget
      omega
    . rw [clientBytes_release hi.ledger hget hsame hlive]
      have := hi.capped.share clientKey
      split <;> omega

theorem Inv.drop (hi : Inv options b) (hget : b.requests[i]? = some (.admitted r₀))
    (hsame : SameReservation r r₀) (hlive : r.released = false) : Inv options (b.drop i r) :=
  hi.release hget ⟨hsame.clientKey, hsame.mapAtCapacity, hsame.reserved, hsame.released,
    hsame.releases⟩ hlive

theorem Inv.write (hi : Inv options b) (hget : b.requests[i]? = some (.admitted r₀)) (hr : Sane r)
    (hsame : SameReservation r r₀) : Inv options (b.write i r) where
  ledger := by
    apply hi.ledger.write hget hr hsame.clientKey
    unfold Request.held
    dsimp only
    rw [hsame.released, hsame.reserved]
  capped := ⟨hi.capped.budget, hi.capped.share⟩

theorem Inv.terminal (hi : Inv options b) (hget : b.requests[i]? = some (.admitted r)) :
    Inv options ((b.write i { r with terminated := true }).release i { r with terminated := true }) := by
  have hsane := hi.ledger.sane r (List.mem_of_getElem? hget)
  by_cases hreleased : r.released = true
  . have hsame : (b.write i { r with terminated := true }).release i { r with terminated := true } =
        b.write i { r with terminated := true } := by
      unfold InflightBodyBudget.release
      rw [if_pos hreleased]
    rw [hsame]
    exact hi.write hget ⟨hsane.nonneg, hsane.tracked, hsane.armed, hsane.once, fun _ => hreleased⟩
      ⟨rfl, rfl, rfl, rfl, rfl⟩
  . have hsame : (b.write i { r with terminated := true }).release i { r with terminated := true } =
        b.release i { r with terminated := true } := by
      unfold InflightBodyBudget.release InflightBodyBudget.write
      simp only [hreleased, Bool.false_eq_true, if_false, List.set_set]
    rw [hsame]
    exact hi.release hget ⟨rfl, rfl, rfl, rfl, rfl⟩ (by simpa using hreleased)

theorem Inv.refuse (hi : Inv options b) (refusal : Refusal) : Inv options (b.refuse refusal) where
  ledger := by
    unfold InflightBodyBudget.refuse
    refine ⟨hi.ledger.total.trans ?_, fun clientKey => (hi.ledger.perClient clientKey).trans ?_, ?_⟩
    . simp [Request.held]
    . simp [Request.heldBy]
    . intro r hr
      simp only [List.mem_append, List.mem_singleton, reduceCtorEq, or_false] at hr
      exact hi.ledger.sane r hr
  capped := ⟨hi.capped.budget, hi.capped.share⟩

theorem clientBytes_reserve (incoming : Incoming) (reserved : Nat)
    (hmap : b.mapAtCapacity incoming.clientKey = false) (clientKey : Text) :
    (b.reserve incoming reserved).clientBytes clientKey =
      b.clientBytes clientKey + if clientKey = incoming.clientKey then (reserved : Int) else 0 := by
  unfold reserve clientBytes
  simp only [hmap, Bool.false_eq_true, if_false, Map.get?_set]
  split
  . next heq =>
    subst heq
    rfl
  . rw [Int.add_zero]

theorem Inv.reserve (hi : Inv options b) {incoming : Incoming} {reserved : Nat}
    (hbudget : b.currentBytes + reserved ≤ options.budgetBytes)
    (hshare : b.clientBytes incoming.clientKey + reserved ≤ options.perClientCap)
    (hmap : b.mapAtCapacity incoming.clientKey = false) :
    Inv options (b.reserve incoming reserved) where
  ledger := by
    refine ⟨?_, fun clientKey => ?_, ?_⟩
    . have htotal : (b.reserve incoming reserved).currentBytes = b.currentBytes + reserved := rfl
      rw [htotal, hi.ledger.total]
      simp [InflightBodyBudget.reserve, Request.held]
    . rw [clientBytes_reserve incoming reserved hmap, hi.ledger.perClient]
      by_cases hk : clientKey = incoming.clientKey
      . simp [InflightBodyBudget.reserve, Request.heldBy, Request.held, hk]
      . simp [InflightBodyBudget.reserve, Request.heldBy, hk, Ne.symm hk]
    . intro r hr
      simp only [InflightBodyBudget.reserve, List.mem_append, List.mem_singleton,
        Request.admitted.injEq] at hr
      rcases hr with hr | rfl
      . exact hi.ledger.sane r hr
      . exact ⟨Int.natCast_nonneg _, hmap, fun _ => rfl, rfl, fun h => h⟩
  capped := by
    refine ⟨hbudget, fun clientKey => ?_⟩
    rw [clientBytes_reserve incoming reserved hmap]
    have := hi.capped.share clientKey
    split
    . next heq => exact heq ▸ hshare
    . omega

theorem Inv.middleware (hi : Inv options b) (incoming : Incoming) :
    Inv options (b.middleware options incoming) := by
  unfold InflightBodyBudget.middleware
  dsimp only
  split
  . exact hi.refuse _
  . split
    . exact hi.refuse _
    . next hadmitted =>
      simp only [Bool.or_eq_true, decide_eq_true_eq, not_or, Bool.not_eq_true] at hadmitted
      rcases hadmitted with ⟨⟨hbudget, hshare⟩, hmap⟩
      exact hi.reserve (Int.not_lt.mp hbudget) (Int.not_lt.mp hshare) hmap

section Resize

theorem clientBytes_resize (actual : Int) (htracked : r.mapAtCapacity = false) (clientKey : Text) :
    (b.resize i r actual).clientBytes clientKey =
      b.clientBytes clientKey + if clientKey = r.clientKey then actual - r.reserved else 0 := by
  unfold resize clientBytes
  simp only [htracked, Bool.false_eq_true, if_false, Map.get?_set]
  split
  . next heq =>
    subst heq
    rfl
  . rw [Int.add_zero]

theorem Ledger.resize (hl : Ledger b) (hget : b.requests[i]? = some (.admitted r₀)) (hr : Sane r)
    (hsame : SameReservation r r₀) (hlive : r.released = false) {actual : Int}
    (hactual : 0 ≤ actual) : Ledger (b.resize i r actual) := by
  have hlive₀ : r₀.released = false := hsame.released ▸ hlive
  have hheld : Request.held (.admitted { r with reserved := actual }) -
      Request.held (.admitted r₀) = actual - r.reserved := by
    simp [Request.held, hlive, hlive₀, hsame.reserved]
  have hresized : Sane { r with reserved := actual } :=
    ⟨hactual, hr.tracked, hr.armed, hr.once, hr.ended⟩
  refine hl.change hget hresized hsame.clientKey rfl ?_ ?_
  . rw [hheld]
    rfl
  . intro clientKey
    rw [hheld, clientBytes_resize actual hr.tracked, hsame.clientKey]

theorem Inv.drop_resize (hi : Inv options b) (hget : b.requests[i]? = some (.admitted r₀))
    (hr : Sane r) (hsame : SameReservation r r₀) (hlive : r.released = false) {actual : Int}
    (hactual : 0 ≤ actual) :
    Inv options ((b.resize i r actual).drop i { r with reserved := actual }) := by
  have hledger := hi.ledger.resize hget hr hsame hlive hactual
  have hget₁ : (b.resize i r actual).requests[i]? = some (.admitted { r with reserved := actual }) :=
    List.getElem?_set_self (List.getElem?_eq_some_iff.mp hget).1
  have hdropped : SameReservation { r with reserved := actual, destroyed := true }
      { r with reserved := actual } := ⟨rfl, rfl, rfl, rfl, rfl⟩
  have hnonneg := hr.nonneg
  refine ⟨hledger.release hget₁ hdropped hlive, ?_, fun clientKey => ?_⟩
  . have hbytes : (b.resize i r actual).currentBytes = b.currentBytes + (actual - r.reserved) := rfl
    have := hi.capped.budget
    have hrelease := currentBytes_release (b := b.resize i r actual) (i := i)
      (r := { r with reserved := actual, destroyed := true }) hlive
    unfold InflightBodyBudget.drop
    dsimp only at hrelease ⊢
    omega
  . have := hi.capped.share clientKey
    have hrelease := clientBytes_release hledger hget₁ hdropped hlive clientKey
    have hbytes := clientBytes_resize (b := b) (i := i) actual hr.tracked clientKey
    unfold InflightBodyBudget.drop
    rw [hrelease, hbytes]
    dsimp only
    by_cases hk : clientKey = r.clientKey
    . rw [if_pos hk, if_pos hk]
      omega
    . rw [if_neg hk, if_neg hk]
      omega

end Resize

theorem Inv.reconcileUndeclared (hi : Inv options b) (hget : b.requests[i]? = some (.admitted r₀))
    (hr : Sane r) (hsame : SameReservation r r₀) (hlive : r.released = false) (readNow : Nat) :
    Inv options (b.reconcileUndeclared options i r readNow) := by
  have hactual : 0 ≤ max (options.undeclaredReservation : Int) (readNow - r.startBytes) := by omega
  unfold InflightBodyBudget.reconcileUndeclared
  dsimp only
  split
  . exact hi.write hget hr hsame
  . split
    . exact hi.drop_resize hget hr hsame hlive hactual
    . next hshare =>
      split
      . exact hi.drop_resize hget hr hsame hlive hactual
      . next hbudget =>
        refine ⟨hi.ledger.resize hget hr hsame hlive hactual, Int.not_lt.mp hbudget, fun clientKey => ?_⟩
        rw [hr.tracked] at hshare
        simp only [Bool.not_false, Bool.true_and, decide_eq_true_eq] at hshare
        rw [clientBytes_resize _ hr.tracked]
        split
        . next heq => exact heq ▸ Int.not_lt.mp hshare
        . have := hi.capped.share clientKey
          omega

theorem Inv.poll (hi : Inv options b) (hget : b.requests[i]? = some (.admitted r))
    (harmed : r.stallTimer = true) (complete : Bool) (readNow now : Nat) :
    Inv options (b.poll options i r complete readNow now) := by
  have hsane := hi.ledger.sane r (List.mem_of_getElem? hget)
  have hlive := hsane.armed harmed
  unfold InflightBodyBudget.poll
  split
  . exact hi.write hget ⟨hsane.nonneg, hsane.tracked, (fun h => nomatch h), hsane.once, hsane.ended⟩
      ⟨rfl, rfl, rfl, rfl, rfl⟩
  . split
    . dsimp only
      split
      . have hread : Sane { r with lastBytes := readNow, lastProgress := now } :=
          ⟨hsane.nonneg, hsane.tracked, hsane.armed, hsane.once, hsane.ended⟩
        exact hi.reconcileUndeclared hget hread ⟨rfl, rfl, rfl, rfl, rfl⟩ hlive readNow
      . split
        . exact hi.write hget
            ⟨hsane.nonneg, hsane.tracked, (fun h => nomatch h), hsane.once, hsane.ended⟩
            ⟨rfl, rfl, rfl, rfl, rfl⟩
        . exact hi.write hget
            ⟨hsane.nonneg, hsane.tracked, hsane.armed, hsane.once, hsane.ended⟩
            ⟨rfl, rfl, rfl, rfl, rfl⟩
    . split
      . exact hi.drop hget ⟨rfl, rfl, rfl, rfl, rfl⟩ hlive
      . exact hi

theorem Inv.step {b' : InflightBodyBudget} {event : Event} (hi : Inv options b)
    (hstep : step options b event = some b') : Inv options b' := by
  cases event with
  | incoming incoming =>
    simp only [Budget.step, Option.some.injEq] at hstep
    exact hstep ▸ hi.middleware incoming
  | signal i signal =>
    simp only [Budget.step] at hstep
    split at hstep
    . contradiction
    . rw [Option.some.injEq] at hstep
      exact hstep ▸ hi
    . next r hget =>
      have hsane := hi.ledger.sane r (List.mem_of_getElem? hget)
      cases signal with
      | reqAborted =>
        simp only [Option.some.injEq] at hstep
        exact hstep ▸ hi
      | reqEnd =>
        simp only [Option.some.injEq] at hstep
        subst hstep
        exact hi.write hget
          ⟨hsane.nonneg, hsane.tracked, (fun h => nomatch h), hsane.once, hsane.ended⟩
          ⟨rfl, rfl, rfl, rfl, rfl⟩
      | resFinish | resClose | resError | reqClose | reqError =>
        simp only [Option.some.injEq] at hstep
        subst hstep
        exact hi.terminal hget
  | poll i complete readNow now =>
    simp only [Budget.step] at hstep
    split at hstep
    . contradiction
    . next r hadmitted =>
      split at hstep
      . next harmed =>
        rw [Option.some.injEq] at hstep
        subst hstep
        unfold admitted? at hadmitted
        split at hadmitted
        . next r' hget =>
          rw [Option.some.injEq] at hadmitted
          subst hadmitted
          exact hi.poll hget harmed complete readNow now
        . contradiction
        . contradiction
      . contradiction

theorem inv_initial : Inv options .initial where
  ledger := by constructor <;> simp [InflightBodyBudget.initial, currentBytes, clientBytes]
  capped := by constructor <;> simp [InflightBodyBudget.initial, currentBytes, clientBytes]

end Steps

/-- After every sequence of events the budget is balanced. -/
theorem balanced_of_reach (options : Options) (b : InflightBodyBudget)
    (hreach : (machine options).Reach Machine.anyStep .initial b) : Balanced options b := by
  have hinv : Inv options b :=
    hreach.invariant inv_initial fun _ _ _ hi _ hstep => hi.step hstep
  exact ⟨hinv.ledger.total, hinv.ledger.perClient, hinv.capped.budget, hinv.capped.share,
    fun r hr => (hinv.ledger.sane r hr).once, fun r hr => (hinv.ledger.sane r hr).ended⟩

section Sample

def sampleOptions : Options where
  budgetBytes := 4000000
  retryAfterSeconds := 1
  shareBytes := 2000000

def sampleIncoming (contentLength transferEncoding : Option Text) : Event :=
  .incoming {
    headers := { contentLength, transferEncoding, contentEncoding := none }
    clientKey := "10.0.0.7".toList
    headersSent := false
    bytesRead := 200
    now := 0 }

/--
A declared body and a streamed one of a client, a third one that its share refuses. The streamed one
outgrows the share, then the events of its socket come in any order.
-/
def sampleRun : List Event :=
  [sampleIncoming (some "400".toList) none, sampleIncoming none (some "chunked".toList),
    sampleIncoming (some "1000000".toList) none, .poll 1 false 1800200 5000,
    .poll 1 false 9000000 10000, .signal 1 .reqAborted, .signal 1 .reqClose, .signal 1 .resClose,
    .signal 0 .reqEnd]

theorem balanced_of_reach_sample :
    ∃ b, (machine sampleOptions).Reach Machine.anyStep .initial b ∧
      (b.currentBytes, b.clientBytes "10.0.0.7".toList, b.requests.length) = (400, 400, 3) ∧
      Balanced sampleOptions b := by
  have hrun : ((machine sampleOptions).exec Machine.anyStep .initial sampleRun).map (fun b =>
      (b.currentBytes, b.clientBytes "10.0.0.7".toList, b.requests.length)) =
      some (400, 400, 3) := by decide +kernel
  rcases Machine.reach_of_exec_map hrun with ⟨b, hreach, hvalues⟩
  exact ⟨b, hreach, hvalues, balanced_of_reach sampleOptions b hreach⟩

end Sample

end OpenWA.Budget
