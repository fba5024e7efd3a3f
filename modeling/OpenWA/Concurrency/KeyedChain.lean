import Mathlib.Algebra.Order.BigOperators.Group.Finset
import OpenWA.Async.Machine
import OpenWA.Js.Map
import OpenWA.Js.Text

/-!
This module contains the two classes that keep a chain of promises for each key, `KeyedAsyncLock` and
`KeyedMutationQueue`, under every order in which the reactions of their promises may run.
-/

namespace OpenWA.Concurrency.KeyedChain

open Async Js

/-- Where the chain `prev.catch(…).then(fn)` of one call stands. -/
inductive Phase where
  /-- `prev.catch(() => undefined)` is pending -/
  | chained
  /-- the reaction that calls `fn` is due -/
  | due
  | running
  /-- the promise that `fn` returned is settled -/
  | ended (fulfilled : Bool)
  /-- `next` is settled and the reaction of `finally` is due -/
  | settled (fulfilled : Bool)
  | reclaimed
deriving DecidableEq

namespace Phase

/-- `prev.catch(() => undefined)` is settled. -/
def turned (p : Phase) : Bool :=
  match p with
  | chained => false
  | _ => true

/-- `fn` was called. -/
def begun (p : Phase) : Bool :=
  match p with
  | chained | due => false
  | _ => true

/-- `next` is settled. -/
def done (p : Phase) : Bool :=
  match p with
  | settled _ | reclaimed => true
  | _ => false

/-- What a reaction makes of the phase. -/
def next (p p' : Phase) : Bool :=
  match p, p' with
  | chained, due | due, running | running, ended _ | ended _, settled _ | settled _, reclaimed => true
  | _, _ => false

/-- The reactions that are left. -/
def left (p : Phase) : Nat :=
  match p with
  | chained => 5
  | due => 4
  | running => 3
  | ended _ => 2
  | settled _ => 1
  | reclaimed => 0

variable {p p' : Phase}

theorem turned_of_begun (h : p.begun = true) : p.turned = true := by
  cases p <;> simp_all [begun, turned]

theorem begun_of_done (h : p.done = true) : p.begun = true := by
  cases p <;> simp_all [begun, done]

theorem turned_of_done (h : p.done = true) : p.turned = true := turned_of_begun (begun_of_done h)

theorem done_of_next (h : p.next p' = true) (hp : p.done = true) : p'.done = true := by
  cases p <;> cases p' <;> simp_all [next, done]

theorem left_of_next (h : p.next p' = true) : p.left = p'.left + 1 := by
  cases p <;> cases p' <;> simp_all [next, left]

/-- Only the reaction of `prev.catch` makes the turn of a call come. -/
theorem turned_of_next (h : p.next p' = true) (hp' : p' ≠ .due) : p.turned = true := by
  cases p <;> cases p' <;> simp_all [next, turned]

theorem begun_of_next (h : p.next p' = true) : p'.begun = (p.begun || p' == .running) := by
  cases p <;> cases p' <;> simp_all [next, begun]

theorem eq_due_of_next (h : p.next .running = true) : p = .due := by
  cases p <;> simp_all [next]

end Phase

structure Link where
  key : Text
  /-- The key's tail at the call. -/
  prev : Option Nat
deriving DecidableEq

structure State where
  tails : Js.Map Text Nat
  /-- The calls in their order. -/
  links : List Link
  phase : Nat → Phase
  /-- The calls whose `fn` was called, in the order of these. -/
  starts : List Nat
  /-- The failures that `onUnexpectedError` was told about. -/
  reported : List Nat

namespace State

def init : State where
  tails := .empty
  links := []
  phase _ := .chained
  starts := []
  reported := []

/-- The call was made for the key. -/
def On (s : State) (key : Text) (i : Nat) : Prop := ∃ link, s.links[i]? = some link ∧ link.key = key

instance (s : State) (key : Text) (i : Nat) : Decidable (s.On key i) :=
  match h : s.links[i]? with
  | none => .isFalse fun ⟨link, hlink, _⟩ => by simp [h] at hlink
  | some link =>
    if hkey : link.key = key then .isTrue ⟨link, h, hkey⟩
    else .isFalse fun ⟨link', hlink, hkey'⟩ => by
      rw [h, Option.some.injEq] at hlink
      exact hkey (hlink ▸ hkey')

def move (s : State) (i : Nat) (p : Phase) : State := { s with phase := Function.update s.phase i p }

/-- The promise that was the tail is settled; `Promise.resolve()` always is. -/
def prevDone (s : State) (link : Link) : Bool :=
  match link.prev with
  | some i => (s.phase i).done
  | none => true

end State

inductive Class where
  | keyedAsyncLock
  | keyedMutationQueue
deriving DecidableEq

inductive Event where
  /-- `run` or `enqueue` is called -/
  | call (key : Text)
  /-- the reaction of `prev.catch` runs -/
  | swallow (i : Nat)
  | start (i : Nat)
  | finish (i : Nat) (fulfilled : Bool)
  /-- `next` settles, with a handler that may throw -/
  | settle (i : Nat) (throws : Bool)
  | reclaim (i : Nat)
deriving DecidableEq

/-- The call whose promises the event is about. -/
def Event.call? (e : Event) : Option Nat :=
  match e with
  | .call _ => none
  | .swallow i | .start i | .finish i _ | .settle i _ | .reclaim i => some i

namespace KeyedAsyncLock

def run (s : State) (key : Text) : State :=
  let prev := s.tails.get? key
  { s with tails := s.tails.set key s.links.length, links := s.links ++ [⟨key, prev⟩] }

/-- `next` takes over how `fn` ended. -/
def settle (s : State) (i : Nat) (fulfilled _throws : Bool) : State := s.move i (.settled fulfilled)

end KeyedAsyncLock

namespace KeyedMutationQueue

def enqueue (s : State) (key : Text) : State :=
  let prior := s.tails.get? key
  { s with tails := s.tails.set key s.links.length, links := s.links ++ [⟨key, prior⟩] }

/-- `.catch(err => this.onUnexpectedError(key, err))` -/
def settle (s : State) (i : Nat) (fulfilled throws : Bool) : State :=
  if fulfilled then s.move i (.settled true)
  else { s.move i (.settled !throws) with reported := s.reported ++ [i] }

end KeyedMutationQueue

def call (c : Class) (s : State) (key : Text) : State :=
  match c with
  | .keyedAsyncLock => KeyedAsyncLock.run s key
  | .keyedMutationQueue => KeyedMutationQueue.enqueue s key

def settle (c : Class) (s : State) (i : Nat) (fulfilled throws : Bool) : State :=
  match c with
  | .keyedAsyncLock => KeyedAsyncLock.settle s i fulfilled throws
  | .keyedMutationQueue => KeyedMutationQueue.settle s i fulfilled throws

/-- The reaction of `finally`: the entry goes if no later call replaced it. -/
def reclaim (s : State) (key : Text) (i : Nat) : State :=
  let s' := s.move i .reclaimed
  if s.tails.get? key = some i then { s' with tails := s.tails.delete key } else s'

/-- The event of a call's promises, if it is due. -/
def react (c : Class) (s : State) (link : Link) (e : Event) : Option State :=
  match e with
  | .call _ => none
  | .swallow i => if s.phase i = .chained ∧ s.prevDone link = true then some (s.move i .due) else none
  | .start i =>
    if s.phase i = .due then some { s.move i .running with starts := s.starts ++ [i] } else none
  | .finish i fulfilled => if s.phase i = .running then some (s.move i (.ended fulfilled)) else none
  | .settle i throws =>
    match s.phase i with
    | .ended fulfilled => some (settle c s i fulfilled throws)
    | _ => none
  | .reclaim i =>
    match s.phase i with
    | .settled _ => some (reclaim s link.key i)
    | _ => none

def machine (c : Class) : Machine State Event where
  step s e :=
    match e with
    | .call key => some (call c s key)
    | e =>
      match e.call? with
      | some i =>
        match s.links[i]? with
        | some link => react c s link e
        | none => none
      | none => none

variable {c : Class} {s s' : State} {e : Event} {i j : Nat} {link : Link} {p : Phase}
  {key key' : Text}

/-- What every reaction does, in terms of the phase that it brings the call to. -/
structure Moved (s s' : State) (i : Nat) (link : Link) (p : Phase) : Prop where
  links : s'.links = s.links
  phase : s'.phase = Function.update s.phase i p
  next : (s.phase i).next p = true
  prev : p = .due → s.prevDone link = true
  starts : s'.starts = if p = .running then s.starts ++ [i] else s.starts
  tails : s'.tails =
    if p = .reclaimed ∧ s.tails.get? link.key = some i then s.tails.delete link.key else s.tails

theorem call_eq (c : Class) (s : State) (key : Text) : call c s key =
    { s with
      tails := s.tails.set key s.links.length
      links := s.links ++ [⟨key, s.tails.get? key⟩] } := by
  cases c <;> rfl

theorem settle_moved {b throws : Bool} (h : s.phase i = .ended b) :
    ∃ b', Moved s (settle c s i b throws) i link (.settled b') := by
  have hmove (b' : Bool) : Moved s (s.move i (.settled b')) i link (.settled b') :=
    ⟨rfl, rfl, by rw [h]; rfl, nofun, rfl, by simp [State.move]⟩
  cases c with
  | keyedAsyncLock => exact ⟨b, hmove b⟩
  | keyedMutationQueue =>
    cases b with
    | true => exact ⟨true, hmove true⟩
    | false =>
      have hmoved := hmove (!throws)
      exact ⟨!throws, hmoved.links, hmoved.phase, hmoved.next, hmoved.prev, hmoved.starts, hmoved.tails⟩

theorem reclaim_moved {b : Bool} (h : s.phase i = .settled b) :
    Moved s (reclaim s link.key i) i link .reclaimed := by
  have hnext : (s.phase i).next .reclaimed = true := by rw [h]; rfl
  unfold reclaim
  split
  . next htail => exact ⟨rfl, rfl, hnext, nofun, rfl, by rw [if_pos ⟨rfl, htail⟩]⟩
  . next htail => exact ⟨rfl, rfl, hnext, nofun, rfl, by rw [if_neg fun hand => htail hand.2]; rfl⟩

theorem react_cases (h : react c s link e = some s') :
    ∃ i p, e.call? = some i ∧ Moved s s' i link p := by
  cases e with
  | call key => contradiction
  | swallow i =>
    simp only [react] at h
    split at h
    . next hdue =>
      cases h
      exact ⟨i, .due, rfl, rfl, rfl, by rw [hdue.1]; rfl, fun _ => hdue.2, rfl, by simp [State.move]⟩
    . contradiction
  | start i =>
    simp only [react] at h
    split at h
    . next hdue =>
      cases h
      exact ⟨i, .running, rfl, rfl, rfl, by rw [hdue]; rfl, nofun, rfl, by simp [State.move]⟩
    . contradiction
  | finish i b =>
    simp only [react] at h
    split at h
    . next hrun =>
      cases h
      exact ⟨i, .ended b, rfl, rfl, rfl, by rw [hrun]; rfl, nofun, rfl, by simp [State.move]⟩
    . contradiction
  | settle i throws =>
    simp only [react] at h
    split at h
    . next b hended =>
      cases h
      have hsettle : ∃ b', Moved s (settle c s i b throws) i link (.settled b') := settle_moved hended
      rcases hsettle with ⟨b', hmoved⟩
      exact ⟨i, .settled b', rfl, hmoved⟩
    . contradiction
  | reclaim i =>
    simp only [react] at h
    split at h
    . next b hsettled =>
      cases h
      exact ⟨i, .reclaimed, rfl, reclaim_moved hsettled⟩
    . contradiction

/-- A step is a call, or a reaction of one of the calls. -/
theorem step_cases (h : (machine c).step s e = some s') :
    (∃ key, e = .call key ∧ s' = call c s key) ∨
    ∃ i link p, e.call? = some i ∧ s.links[i]? = some link ∧ Moved s s' i link p := by
  have hreact {i : Nat} (hi : e.call? = some i)
      (h : (match s.links[i]? with | some link => react c s link e | none => none) = some s') :
      ∃ i link p, e.call? = some i ∧ s.links[i]? = some link ∧ Moved s s' i link p := by
    split at h
    . next link hlink =>
      rcases react_cases h with ⟨i', p, hi', hmoved⟩
      rw [hi, Option.some.injEq] at hi'
      exact ⟨i, link, p, hi, hlink, hi' ▸ hmoved⟩
    . contradiction
  cases e with
  | call key => exact .inl ⟨key, rfl, (Option.some.inj h).symm⟩
  | swallow i => exact .inr (hreact rfl h)
  | start i => exact .inr (hreact rfl h)
  | finish i b => exact .inr (hreact rfl h)
  | settle i throws => exact .inr (hreact rfl h)
  | reclaim i => exact .inr (hreact rfl h)

theorem Moved.on (hm : Moved s s' i link p) : s'.On key j ↔ s.On key j := by
  unfold State.On
  rw [hm.links]

theorem on_call : (call c s key').On key j ↔ s.On key j ∨ j = s.links.length ∧ key' = key := by
  unfold State.On
  rw [call_eq]
  simp only [List.getElem?_append]
  split
  . next hlt =>
    have hne : j ≠ s.links.length := Nat.ne_of_lt hlt
    simp [hne]
  . next hge =>
    have hnone : s.links[j]? = none := List.getElem?_eq_none (Nat.le_of_not_lt hge)
    rw [List.getElem?_singleton, hnone]
    by_cases hj : j = s.links.length
    . subst hj
      simp
    . have hne : j - s.links.length ≠ 0 := by omega
      simp [hne, hj]

theorem State.On.lt (h : s.On key i) : i < s.links.length := by
  rcases h with ⟨link, hlink, _⟩
  exact (List.getElem?_eq_some_iff.mp hlink).1

theorem State.On.inj (h : s.On key i) (h' : s.On key' i) : key = key' := by
  rcases h with ⟨link, hlink, rfl⟩
  rcases h' with ⟨link', hlink', rfl⟩
  rw [hlink, Option.some.injEq] at hlink'
  rw [hlink']

theorem on_of_lt (h : i < s.links.length) : ∃ key, s.On key i :=
  ⟨_, s.links[i], List.getElem?_eq_getElem h, rfl⟩

/-- How the chain of a key holds together. -/
structure Serial (s : State) : Prop where
  fresh : ∀ i, s.links.length ≤ i → s.phase i = .chained
  /-- An entry is the key's last call, and it has not been reclaimed. -/
  tail : ∀ key n, s.tails.get? key = some n →
    s.On key n ∧ s.phase n ≠ .reclaimed ∧ ∀ j, s.On key j → j ≤ n
  /-- A key without an entry has no call that a later one would have to wait for. -/
  idle : ∀ key, s.tails.get? key = none → ∀ j, s.On key j → (s.phase j).done = true
  /-- A call is chained to the one before it. -/
  behind : ∀ (j : Nat) (link : Link) (i : Nat), s.links[j]? = some link → link.prev = some i →
    i < j ∧ s.On link.key i ∧ ∀ m < j, s.On link.key m → m ≤ i
  ahead : ∀ (j : Nat) (link : Link), s.links[j]? = some link → link.prev = none →
    ∀ m < j, s.On link.key m → (s.phase m).done = true
  /-- A call's turn comes when all earlier ones of its key are settled. -/
  turn : ∀ key i j, s.On key i → s.On key j → i < j → (s.phase j).turned = true →
    (s.phase i).done = true
  started : ∀ i, i ∈ s.starts ↔ (s.phase i).begun = true
  ordered : s.starts.Pairwise fun i j => ∀ key, s.On key i → s.On key j → i < j

theorem serial_init : Serial State.init where
  fresh _ _ := rfl
  tail _ _ h := nomatch h
  idle _ _ _ h := by simp [State.On, State.init] at h
  behind _ _ _ h := by simp [State.init] at h
  ahead _ _ h := by simp [State.init] at h
  turn _ _ _ h := by simp [State.On, State.init] at h
  started _ := by simp [State.init, Phase.begun]
  ordered := .nil

theorem Serial.call (hs : Serial s) (c : Class) (key : Text) : Serial (call c s key) := by
  have hphase : (KeyedChain.call c s key).phase = s.phase := by rw [call_eq]
  have hlinks : (KeyedChain.call c s key).links = s.links ++ [⟨key, s.tails.get? key⟩] := by rw [call_eq]
  have hstarts : (KeyedChain.call c s key).starts = s.starts := by rw [call_eq]
  have htails : (KeyedChain.call c s key).tails = s.tails.set key s.links.length := by rw [call_eq]
  have hnew : s.phase s.links.length = .chained := hs.fresh _ (Nat.le_refl _)
  have hlen : (KeyedChain.call c s key).links.length = s.links.length + 1 := by simp [hlinks]
  have hlink' (j : Nat) (link : Link) (h : (KeyedChain.call c s key).links[j]? = some link) :
      (j < s.links.length ∧ s.links[j]? = some link ∨
        j = s.links.length ∧ link = ⟨key, s.tails.get? key⟩) := by
    rw [hlinks, List.getElem?_append] at h
    split at h
    . next hlt => exact .inl ⟨hlt, h⟩
    . next hge =>
      rw [List.getElem?_singleton] at h
      split at h
      . next hzero => exact .inr ⟨by omega, (Option.some.inj h).symm⟩
      . contradiction
  have hold {j m : Nat} {k : Text} (hj : j ≤ s.links.length) (hm : m < j)
      (h : (KeyedChain.call c s key).On k m) : s.On k m := by
    rcases on_call.mp h with h | ⟨rfl, _⟩
    . exact h
    . omega
  refine ⟨?fresh, ?tail, ?idle, ?behind, ?ahead, ?turn, ?started, ?ordered⟩
  case fresh =>
    intro i hi
    rw [hphase]
    exact hs.fresh i (by omega)
  case tail =>
    intro k n hn
    rw [htails, Map.get?_set] at hn
    simp only [on_call, hphase]
    split at hn
    . next heq =>
      cases hn
      refine ⟨.inr ⟨rfl, heq.symm⟩, by simp [hnew], ?_⟩
      rintro j (hj | ⟨rfl, _⟩)
      . exact Nat.le_of_lt hj.lt
      . exact Nat.le_refl _
    . next hne =>
      rcases hs.tail k n hn with ⟨hon, hrec, hlast⟩
      refine ⟨.inl hon, hrec, ?_⟩
      rintro j (hj | ⟨_, heq⟩)
      . exact hlast j hj
      . exact absurd heq.symm hne
  case idle =>
    intro k hk j hj
    rw [htails, Map.get?_set] at hk
    rw [hphase]
    split at hk
    . contradiction
    . next hne =>
      rcases on_call.mp hj with hj | ⟨_, heq⟩
      . exact hs.idle k hk j hj
      . exact absurd heq.symm hne
  case behind =>
    intro j link i hlink hprev
    rcases hlink' j link hlink with ⟨hj, hlink⟩ | ⟨rfl, rfl⟩
    . rcases hs.behind j link i hlink hprev with ⟨hlt, hon, hlast⟩
      exact ⟨hlt, on_call.mpr (.inl hon), fun m hm honm => hlast m hm (hold hj.le hm honm)⟩
    . rcases hs.tail key i hprev with ⟨hon, _, hlast⟩
      exact ⟨hon.lt, on_call.mpr (.inl hon), fun m hm honm => hlast m (hold (Nat.le_refl _) hm honm)⟩
  case ahead =>
    intro j link hlink hprev m hm honm
    rw [hphase]
    rcases hlink' j link hlink with ⟨hj, hlink⟩ | ⟨rfl, rfl⟩
    . exact hs.ahead j link hlink hprev m hm (hold hj.le hm honm)
    . exact hs.idle key hprev m (hold (Nat.le_refl _) hm honm)
  case turn =>
    intro k i j hi hj hij hturn
    rw [hphase] at hturn ⊢
    rcases on_call.mp hj with hj | ⟨rfl, _⟩
    . rcases on_call.mp hi with hi | ⟨rfl, _⟩
      . exact hs.turn k i j hi hj hij hturn
      . have := hj.lt
        omega
    . rw [hnew] at hturn
      contradiction
  case started =>
    intro i
    rw [hstarts, hphase]
    exact hs.started i
  case ordered =>
    rw [hstarts]
    refine hs.ordered.imp_of_mem fun {i j} hi hj hij k hik hjk => ?_
    have hlt {m : Nat} (hm : m ∈ s.starts) : m ≠ s.links.length := by
      intro heq
      have hbegun := (hs.started m).mp hm
      rw [heq, hnew] at hbegun
      contradiction
    rcases on_call.mp hik with hik | ⟨h, _⟩
    . rcases on_call.mp hjk with hjk | ⟨h, _⟩
      . exact hij k hik hjk
      . exact absurd h (hlt hj)
    . exact absurd h (hlt hi)

theorem Moved.phase_eq (hm : Moved s s' i link p) : s'.phase i = p := by
  rw [hm.phase, Function.update_self]

theorem Moved.phase_ne (hm : Moved s s' i link p) (hj : j ≠ i) : s'.phase j = s.phase j := by
  rw [hm.phase, Function.update_of_ne hj]

theorem Moved.done (hm : Moved s s' i link p) (h : (s.phase j).done = true) :
    (s'.phase j).done = true := by
  by_cases hj : j = i
  . subst hj
    rw [hm.phase_eq]
    exact Phase.done_of_next hm.next h
  . rw [hm.phase_ne hj]
    exact h

theorem Moved.get? (hm : Moved s s' i link p) : s'.tails.get? key =
    if p = .reclaimed ∧ key = link.key ∧ s.tails.get? key = some i then none
    else s.tails.get? key := by
  rw [hm.tails]
  by_cases hkey : key = link.key
  . subst hkey
    by_cases htail : p = .reclaimed ∧ s.tails.get? link.key = some i
    . simp [htail]
    . simp [htail]
  . split
    . simp [hkey]
    . simp [hkey]

/-- The earlier calls of the key are settled once the one that this call is chained to is. -/
theorem Serial.done_of_prevDone (hs : Serial s) (hlink : s.links[i]? = some link)
    (hprev : s.prevDone link = true) (hon : s.On link.key j) (hj : j < i) :
    (s.phase j).done = true := by
  cases hp : link.prev with
  | none => exact hs.ahead i link hlink hp j hj hon
  | some m =>
    have hdone : (s.phase m).done = true := by simpa [State.prevDone, hp] using hprev
    rcases hs.behind i link m hlink hp with ⟨_, honm, hlast⟩
    rcases Nat.lt_or_eq_of_le (hlast j hj hon) with hlt | rfl
    . exact hs.turn link.key j m hon honm hlt (Phase.turned_of_done hdone)
    . exact hdone

theorem Serial.moved (hs : Serial s) (hlink : s.links[i]? = some link) (hm : Moved s s' i link p) :
    Serial s' := by
  have hon : s.On link.key i := ⟨link, hlink, rfl⟩
  have hearlier (hp : p ≠ .due) (j : Nat) (h : s.On link.key j) (hj : j < i) :
      (s.phase j).done = true :=
    hs.turn link.key j i h hon hj (Phase.turned_of_next hm.next hp)
  refine ⟨?fresh, ?tail, ?idle, ?behind, ?ahead, ?turn, ?started, ?ordered⟩
  case fresh =>
    intro j hj
    rw [hm.links] at hj
    have hlt := hon.lt
    rw [hm.phase_ne (by omega)]
    exact hs.fresh j hj
  case tail =>
    intro k n hn
    rw [hm.get?] at hn
    split at hn
    . contradiction
    . next hkept =>
      rcases hs.tail k n hn with ⟨honn, hrec, hlast⟩
      refine ⟨hm.on.mpr honn, ?_, fun j hj => hlast j (hm.on.mp hj)⟩
      by_cases hni : n = i
      . subst hni
        rw [hm.phase_eq]
        exact fun hp => hkept ⟨hp, honn.inj hon, hn⟩
      . rw [hm.phase_ne hni]
        exact hrec
  case idle =>
    intro k hk j hj
    rw [hm.on] at hj
    rw [hm.get?] at hk
    split at hk
    . next hgone =>
      -- the reclaimed call was the last of its key
      rcases hgone with ⟨rfl, rfl, htail⟩
      rcases Nat.lt_or_eq_of_le ((hs.tail _ i htail).2.2 j hj) with hlt | rfl
      . exact hm.done (hearlier nofun j hj hlt)
      . rw [hm.phase_eq]
        rfl
    . exact hm.done (hs.idle k hk j hj)
  case behind =>
    intro j link' m hlink' hprev
    rw [hm.links] at hlink'
    rcases hs.behind j link' m hlink' hprev with ⟨hlt, honm, hlast⟩
    exact ⟨hlt, hm.on.mpr honm, fun n hn honn => hlast n hn (hm.on.mp honn)⟩
  case ahead =>
    intro j link' hlink' hprev m hlt honm
    rw [hm.links] at hlink'
    exact hm.done (hs.ahead j link' hlink' hprev m hlt (hm.on.mp honm))
  case turn =>
    intro k j j' hj hj' hlt hturn
    rw [hm.on] at hj hj'
    apply hm.done
    by_cases hi : j' = i
    . subst hi
      obtain rfl := hj'.inj hon
      by_cases hp : p = .due
      . exact hs.done_of_prevDone hlink (hm.prev hp) hj hlt
      . exact hearlier hp j hj hlt
    . rw [hm.phase_ne hi] at hturn
      exact hs.turn k j j' hj hj' hlt hturn
  case started =>
    intro j
    have hstart : j ∈ s'.starts ↔ j ∈ s.starts ∨ j = i ∧ p = .running := by
      rw [hm.starts]
      split
      . next hp => simp [hp]
      . next hp => simp [hp]
    rw [hstart, hs.started]
    by_cases hj : j = i
    . subst hj
      rw [hm.phase_eq, Phase.begun_of_next hm.next]
      simp
    . rw [hm.phase_ne hj]
      simp [hj]
  case ordered =>
    simp only [hm.on]
    rw [hm.starts]
    split
    . next hp =>
      subst hp
      refine List.pairwise_append.mpr ⟨hs.ordered, List.pairwise_singleton _ _, ?_⟩
      intro j hj j' hj' k honj honi
      rw [List.mem_singleton] at hj'
      subst hj'
      have hdue : s.phase j' = .due := Phase.eq_due_of_next hm.next
      have hbegun : (s.phase j).begun = true := (hs.started j).mp hj
      rcases Nat.lt_trichotomy j j' with hlt | rfl | hgt
      . exact hlt
      . rw [hdue] at hbegun
        contradiction
      . -- a later call cannot have begun before this one is settled
        have hdone := hs.turn k j' j honi honj hgt (Phase.turned_of_begun hbegun)
        rw [hdue] at hdone
        contradiction
    . exact hs.ordered

theorem Serial.step (hs : Serial s) (h : (machine c).step s e = some s') : Serial s' := by
  rcases step_cases h with ⟨key, rfl, rfl⟩ | ⟨i, link, p, _, hlink, hm⟩
  . exact hs.call c key
  . exact hs.moved hlink hm

theorem serial_of_reach (h : (machine c).Reach Machine.anyStep .init s) : Serial s :=
  h.invariant serial_init fun _ _ _ hs _ hstep => hs.step hstep

/-- The event is a call for the key, or a reaction of one. -/
def State.About (s : State) (key : Text) (e : Event) : Prop :=
  match e.call? with
  | some i => s.On key i
  | none => e = .call key

/-- The task of each call ends as `outcome` says. -/
def Event.Ends (outcome : Nat → Bool) (e : Event) : Prop := ∀ i b, e = .finish i b → b = outcome i

/-- No task of the key runs and no reaction of its calls is due. -/
def State.Quiet (c : Class) (s : State) (key : Text) : Prop :=
  ∀ e i, e.call? = some i → s.On key i → (machine c).step s e = none

/-- The key has no task left: each of its calls began once, and the entry is gone. -/
def State.Drained (s : State) (key : Text) : Prop :=
  (∀ i, s.On key i → s.phase i = .reclaimed ∧ s.starts.count i = 1) ∧ s.tails.get? key = none

theorem Serial.running_unique (hs : Serial s) (hi : s.On key i) (hj : s.On key j)
    (hruni : s.phase i = .running) (hrunj : s.phase j = .running) : i = j := by
  have hnot {i j : Nat} (hi : s.On key i) (hj : s.On key j) (hruni : s.phase i = .running)
      (hrunj : s.phase j = .running) : ¬ i < j := by
    intro hlt
    have hdone := hs.turn key i j hi hj hlt (by rw [hrunj]; rfl)
    rw [hruni] at hdone
    contradiction
  have := hnot hi hj hruni hrunj
  have := hnot hj hi hrunj hruni
  omega

theorem Serial.lt_of_begun (hs : Serial s) (h : (s.phase i).begun = true) : i < s.links.length := by
  apply Nat.lt_of_not_le
  intro hle
  rw [hs.fresh i hle] at h
  contradiction

theorem Serial.nodup (hs : Serial s) : s.starts.Nodup := by
  refine hs.ordered.imp_of_mem fun {i j} hi _ hlt heq => ?_
  subst heq
  rcases on_of_lt (hs.lt_of_begun ((hs.started i).mp hi)) with ⟨key, hon⟩
  have := hlt key hon hon
  omega

theorem Serial.filter_ordered (hs : Serial s) (key : Text) :
    (s.starts.filter fun i => s.On key i).Pairwise (· < ·) := by
  refine (hs.ordered.filter _).imp_of_mem fun hi hj hlt => ?_
  have hi' := of_decide_eq_true (List.mem_filter.mp hi).2
  have hj' := of_decide_eq_true (List.mem_filter.mp hj).2
  exact hlt key hi' hj'

theorem frame (h : (machine c).step s e = some s') (hother : ¬ s.About key e) :
    s'.tails.get? key = s.tails.get? key ∧
      ∀ i, (s'.On key i ↔ s.On key i) ∧ (s.On key i → s'.phase i = s.phase i) := by
  rcases step_cases h with ⟨key', rfl, rfl⟩ | ⟨i, link, p, hi, hlink, hm⟩
  . have hkey : key' ≠ key := fun heq => hother (congrArg Event.call heq)
    refine ⟨?_, fun i => ⟨by simp [on_call, hkey], fun _ => by rw [call_eq]⟩⟩
    rw [call_eq, Map.get?_set, if_neg hkey.symm]
  . have hnot : ¬ s.On key i := by simpa [State.About, hi] using hother
    have hkey : key ≠ link.key := fun heq => hnot ⟨link, hlink, heq.symm⟩
    refine ⟨by rw [hm.get?, if_neg fun hand => hkey hand.2.1], fun j => ⟨hm.on, fun hj => ?_⟩⟩
    apply hm.phase_ne
    intro heq
    exact hnot (heq ▸ hj)

/-- Once the earlier calls of its key are settled, nothing keeps a call from its next reaction. -/
theorem Serial.enabled (hs : Serial s) (hon : s.On key i) (hleft : s.phase i ≠ .reclaimed)
    (hearlier : ∀ j < i, s.On key j → (s.phase j).done = true) (c : Class) (outcome : Nat → Bool) :
    ∃ e s', e.call? = some i ∧ e.Ends outcome ∧ (machine c).step s e = some s' := by
  rcases hon with ⟨link, hlink, rfl⟩
  have hstep {e : Event} (he : e.call? = some i) (hends : e.Ends outcome)
      (hreact : (react c s link e).isSome = true) :
      ∃ e s', e.call? = some i ∧ e.Ends outcome ∧ (machine c).step s e = some s' := by
    rcases Option.isSome_iff_exists.mp hreact with ⟨s', hs'⟩
    refine ⟨e, s', he, hends, ?_⟩
    cases e with
    | call key => contradiction
    | swallow _ | start _ | finish _ _ | settle _ _ | reclaim _ =>
      cases he
      simp only [machine, Event.call?, hlink]
      exact hs'
  cases hphase : s.phase i with
  | chained =>
    have hprev : s.prevDone link = true := by
      cases hp : link.prev with
      | none => simp [State.prevDone, hp]
      | some m =>
        rcases hs.behind i link m hlink hp with ⟨hlt, honm, _⟩
        simpa [State.prevDone, hp] using hearlier m hlt honm
    exact hstep (e := .swallow i) rfl nofun (by simp [react, hphase, hprev])
  | due => exact hstep (e := .start i) rfl nofun (by simp [react, hphase])
  | running =>
    have hends : (Event.finish i (outcome i)).Ends outcome := by
      intro j b heq
      cases heq
      rfl
    exact hstep (e := .finish i (outcome i)) rfl hends (by simp [react, hphase])
  | ended b => exact hstep (e := .settle i false) rfl nofun (by simp [react, hphase])
  | settled b => exact hstep (e := .reclaim i) rfl nofun (by simp [react, hphase])
  | reclaimed => contradiction

theorem Serial.drained (hs : Serial s) (hall : ∀ i, s.On key i → s.phase i = .reclaimed) :
    s.Drained key := by
  refine ⟨fun i hi => ⟨hall i hi, ?_⟩, ?_⟩
  . have hbegun : (s.phase i).begun = true := by rw [hall i hi]; rfl
    exact List.count_eq_one_of_mem hs.nodup ((hs.started i).mpr hbegun)
  . cases htail : s.tails.get? key with
    | none => rfl
    | some n =>
      rcases hs.tail key n htail with ⟨hon, hrec, _⟩
      exact absurd (hall n hon) hrec

/-- The first call of the key that is not reclaimed can go on. -/
theorem Serial.drained_or_enabled (hs : Serial s) (key : Text) (c : Class) (outcome : Nat → Bool) :
    s.Drained key ∨ ∃ e i s', e.call? = some i ∧ s.On key i ∧ e.Ends outcome ∧
      (machine c).step s e = some s' := by
  by_cases hall : ∀ i, s.On key i → s.phase i = .reclaimed
  . exact .inl (hs.drained hall)
  . have hex : ∃ i, s.On key i ∧ s.phase i ≠ .reclaimed := by
      simpa only [not_forall, exists_prop] using hall
    have hfirst := Nat.find_spec hex
    have hearlier (j : Nat) (hj : j < Nat.find hex) (hon : s.On key j) : (s.phase j).done = true := by
      have hrec : s.phase j = .reclaimed := by
        exact Classical.not_not.mp fun h => Nat.find_min hex hj ⟨hon, h⟩
      rw [hrec]
      rfl
    rcases hs.enabled hfirst.1 hfirst.2 hearlier c outcome with ⟨e, s', he, hends, hstep⟩
    exact .inr ⟨e, _, s', he, hfirst.1, hends, hstep⟩

/-- The reactions that the calls have left. -/
def State.left (s : State) : Nat := ∑ i ∈ Finset.range s.links.length, (s.phase i).left

theorem Moved.left_lt (hm : Moved s s' i link p) (hi : i < s.links.length) : s'.left < s.left := by
  unfold State.left
  rw [hm.links]
  have hlt : (s'.phase i).left < (s.phase i).left := by
    rw [hm.phase_eq, Phase.left_of_next hm.next]
    omega
  refine Finset.sum_lt_sum (fun j _ => ?_) ⟨i, Finset.mem_range.mpr hi, hlt⟩
  by_cases hj : j = i
  . exact hj ▸ hlt.le
  . rw [hm.phase_ne hj]

/-- The reactions of the key's calls, with tasks that end as `outcome` says. -/
def Own (key : Text) (outcome : Nat → Bool) (s : State) (e : Event) : Prop :=
  (∃ i, e.call? = some i ∧ s.On key i) ∧ e.Ends outcome

/-- However the tasks of the key end, they all run without a step of any other key. -/
theorem Serial.drains (hs : Serial s) (c : Class) (key : Text) (outcome : Nat → Bool) :
    ∃ s', (machine c).Reach (Own key outcome) s s' ∧ s'.Drained key := by
  induction hleft : s.left using Nat.strong_induction_on generalizing s with
  | _ n ih =>
    rcases hs.drained_or_enabled key c outcome with hdrained | ⟨e, i, s', he, hon, hends, hstep⟩
    . exact ⟨s, .init, hdrained⟩
    . have hlt : s'.left < n := by
        rcases step_cases hstep with ⟨key', rfl, rfl⟩ | ⟨j, link, p, hj, _, hm⟩
        . contradiction
        . rw [he, Option.some.injEq] at hj
          subst hj
          exact hleft ▸ hm.left_lt hon.lt
      rcases ih s'.left hlt (hs.step hstep) rfl with ⟨s'', hreach, hdrained⟩
      exact ⟨s'', .trans (.step .init ⟨⟨i, he, hon⟩, hends⟩ hstep) hreach, hdrained⟩

/-- What a key's callers rely on. -/
structure Serialised (c : Class) (s : State) (key : Text) : Prop where
  /-- one at a time -/
  one : ∀ i j, s.On key i → s.On key j → s.phase i = .running → s.phase j = .running → i = j
  /-- in the order of the calls, none twice -/
  order : (s.starts.filter fun i => s.On key i).Pairwise (· < ·)
  /-- after all earlier ones -/
  waits : ∀ i j, s.On key i → s.On key j → i < j → j ∈ s.starts → (s.phase i).done = true
  /-- No step of another key changes what the key's calls wait for. -/
  apart : ∀ e s', (machine c).step s e = some s' → ¬ s.About key e →
    s'.tails.get? key = s.tails.get? key ∧
      ∀ i, (s'.On key i ↔ s.On key i) ∧ (s.On key i → s'.phase i = s.phase i)
  /-- When nothing is left to happen for the key, every call began once and the entry is gone. -/
  quiet : s.Quiet c key → s.Drained key
  /-- However the tasks of the key end, its own steps run them all. -/
  drains : ∀ outcome, ∃ s', (machine c).Reach (Own key outcome) s s' ∧ s'.Drained key

theorem serialised_of_reach (c : Class) (h : (machine c).Reach Machine.anyStep .init s) (key : Text) :
    Serialised c s key := by
  have hs := serial_of_reach h
  refine ⟨fun i j => hs.running_unique, hs.filter_ordered key, ?_, fun e s' => frame, ?_, ?_⟩
  . intro i j hi hj hlt hmem
    exact hs.turn key i j hi hj hlt (Phase.turned_of_begun ((hs.started j).mp hmem))
  . intro hquiet
    rcases hs.drained_or_enabled key c (fun _ => true) with hdrained | ⟨e, i, s', he, hon, _, hstep⟩
    . exact hdrained
    . rw [hquiet e i he hon] at hstep
      contradiction
  . exact hs.drains c key

/--
The first task of a key fails and its promise is settled; a call arrives before the entry is
reclaimed, and a task of another key runs meanwhile.
-/
def lateCall : List Event :=
  [.call "a".toList, .call "b".toList, .swallow 0, .start 0, .swallow 1, .start 1, .finish 0 false,
    .settle 0 true, .call "a".toList, .reclaim 0, .swallow 2, .start 2]

theorem serialised_lateCall : ∃ s, (machine .keyedAsyncLock).Reach Machine.anyStep .init s ∧
    (s.starts = [0, 1, 2] ∧ s.phase 0 = .reclaimed ∧ s.tails.get? "a".toList = some 2) ∧
    Serialised .keyedAsyncLock s "a".toList := by
  have hrun : ((machine .keyedAsyncLock).exec Machine.anyStep .init lateCall).map
      (fun s => (s.starts, s.phase 0, s.tails.get? "a".toList)) =
        some ([0, 1, 2], .reclaimed, some 2) := by
    decide +kernel
  rcases Machine.reach_of_exec_map hrun with ⟨s, hreach, heq⟩
  simp only [Prod.mk.injEq] at heq
  exact ⟨s, hreach, heq, serialised_of_reach _ hreach _⟩

end OpenWA.Concurrency.KeyedChain
