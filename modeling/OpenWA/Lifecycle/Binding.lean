import Mathlib.Data.List.Nodup
import OpenWA.Lifecycle.Control
import OpenWA.Lifecycle.Memory

/-!
This module contains the account binding of a session: the phone that the row names once the writes in
flight have taken effect, the phone that an engine was built with or has reported, and what keeps a
ready callback from replacing a linked number by another one.
-/

namespace OpenWA.Lifecycle

open Async

/-- What a write does to the phone of the row. -/
def Write.binding (w : Write) (phone : Option Jid) : Option Jid :=
  match w with
  | .status _ => phone
  | .ready p => if p = [] then phone else some p
  | .clearPhone => none

/-- The write may change the phone. -/
def Write.binds (w : Write) : Bool :=
  match w with
  | .status _ => false
  | .ready _ | .clearPhone => true

theorem Write.apply_phone (w : Write) (row : Session) : (w.apply row).phone = w.binding row.phone := by
  cases w with
  | ready p => unfold apply binding; dsimp only; split <;> rfl
  | _ => rfl

/-- The phone after the writes `ws`. -/
def bindingAfter (ws : List (Nat × Write)) (phone : Option Jid) : Option Jid :=
  ws.foldl (fun phone w => w.2.binding phone) phone

/-- The write stores a number of another account over the number `q`. -/
def Write.replaces (w : Write) (phone : Option Jid) (q : Jid) : Prop :=
  phone = some q ∧ q ≠ [] ∧ ∃ p, w = .ready p ∧ p ≠ [] ∧ userPart p ≠ userPart q

namespace State

variable (s : State)

/-- The phone of the stored row. -/
def phone : Option (Option Jid) := s.row.map Session.phone

/-- The writes in flight that may change the phone. -/
def phoneWrites : List (Nat × Write) := s.writes.filter fun w => w.2.binds

/-- The phone of the row once the writes in flight have taken effect. -/
def binding : Option Jid := s.phone.bind (bindingAfter s.phoneWrites)

/-- The write number `i` leaves the phone alone, or is the next one that does not. -/
def phoneInOrder (i : Nat) : Bool :=
  s.phoneWrites.all (fun w => w.1 != i) || s.phoneWrites.head?.any fun w => w.1 = i

end State

/--
The reports of a run. `linked` are the accounts whose last ready was followed neither by a logout nor
by a terminal unlink, and `linkedAt` those that were so when a write was issued. `accepted` and
`reported` are the last numbers that an engine became ready with, and reported.
-/
structure Reports where
  linked : Jid → Bool
  linkedAt : Nat → Jid → Bool
  accepted : Nat → Option Jid
  reported : Nat → Option Jid

namespace Reports

variable (b : Reports)

def unlinked : Reports := { b with linked := fun _ => false }

/-- The engine `e` reports to be ready with `phone`. -/
def ready (n : Node) (issued e : Nat) (phone : Jid) : Reports :=
  if phone = [] then
    b
  else
    let live := n.isLive e && !n.refuses e phone
    { linked := fun u => live && u = userPart phone || b.linked u
      linkedAt := fun i => if i = issued then b.linked else b.linkedAt i
      accepted := fun i => if i = e && live then some phone else b.accepted i
      reported := fun i => if i = e then some phone else b.reported i }

/-- A new engine object has reported nothing. -/
def created (e : Nat) : Reports :=
  { b with
    accepted := fun i => if i = e then none else b.accepted i
    reported := fun i => if i = e then none else b.reported i }

end Reports

def noteReports (a : Act Event Answer Loc) (s _s' : State) (b : Reports) : Reports :=
  match a with
  | .event _ (.ready p e phone) => b.ready (s.node p) s.issued e phone
  | .event _ (.disconnected _ _ true) | .event _ (.verb .logout _) | .event _ (.serviceLogout _) => b.unlinked
  | .turn _ ⟨p, .startCreate _⟩ _ | .turn _ ⟨p, .reconnectCreate ..⟩ _ => b.created (s.node p).created
  | _ => b

/-- The number of the account an engine holds: the last it became ready with, else the one it was built with. -/
def holder (w : SessionWorld Reports) (p e : Nat) : Option Jid :=
  match w.hist.ext.accepted e with
  | some phone => some phone
  | none => ((w.st.node p).engines e).previousPhone

section Condition

variable (p : Nat)

/-- The events of one process that neither boots nor crashes, with a database that refuses nothing. -/
def Event.oneProcess (v : Event) : Bool :=
  match v with
  | .boot _ | .crash _ => false
  | .database _ fault => !fault
  | .tick _ => true
  | v => v.pid? = some p

/-- The writes of the phone take effect in the order of their issue. -/
def Event.inOrder (v : Event) (s : State) : Bool :=
  match v with
  | .database i _ => s.phoneInOrder i
  | _ => true

/-- An engine that was built without a number does not become ready with another account than before. -/
def Event.returns (v : Event) (n : Node) (b : Reports) : Bool :=
  match v with
  | .ready _ e phone =>
    (n.engines e).previousPhone.any (· ≠ []) || phone = [] ||
      (b.accepted e).all fun r => userPart phone = userPart r || !b.linked (userPart r)
  | _ => true

/-- An engine is built from a row of the account that the row names by now. -/
def Place.knows (pt : Place) (binding : Option Jid) : Bool :=
  match pt with
  | .startCreate session | .reconnectCreate _ session =>
    binding.all fun q => q = [] || session.phone.any fun r => r ≠ [] && userPart q = userPart r
  | _ => true

/-- The steps of one process in which the writes of the phone take effect in the order of their issue. -/
def OneProcess {δ : Type} (w : SessionWorld δ) (a : Act Event Answer Loc) : Prop :=
  match a with
  | .event _ v => v.oneProcess p = true ∧ v.inOrder w.st = true
  | .turn .. => True

instance {δ : Type} (w : SessionWorld δ) (a : Act Event Answer Loc) : Decidable (OneProcess p w a) :=
  match a with
  | .event .. => inferInstanceAs (Decidable (_ ∧ _))
  | .turn .. => inferInstanceAs (Decidable True)

/--
The condition on the steps of a run: the row that an engine is built from names the account that the
row names, unless that names none, and an engine built without a number does not become ready with two
accounts unless the first one was unlinked.
-/
def Bound (w : SessionWorld Reports) (a : Act Event Answer Loc) : Prop :=
  OneProcess p w a ∧
    match a with
    | .event _ v => v.returns (w.st.node p) w.hist.ext = true
    | .turn _ l _ => l.place.knows w.st.binding = true

instance (w : SessionWorld Reports) (a : Act Event Answer Loc) : Decidable (Bound p w a) :=
  match a with
  | .event .. => inferInstanceAs (Decidable (_ ∧ _ = true))
  | .turn .. => inferInstanceAs (Decidable (_ ∧ _ = true))

end Condition

/-- Every write of `ws` that replaces a number does so after that number was unlinked. -/
def Agree (linkedAt : Nat → Jid → Bool) (phone : Option Jid) (ws : List (Nat × Write)) : Prop :=
  match ws with
  | [] => True
  | w :: ws =>
    (∀ q, w.2.replaces phone q → linkedAt w.1 (userPart q) = false) ∧ Agree linkedAt (w.2.binding phone) ws

section Writes

variable {s s' : State} {linkedAt linkedAt' : Nat → Jid → Bool} {ws ws' : List (Nat × Write)} {phone : Option Jid}

theorem bindingAfter_append : bindingAfter (ws ++ ws') phone = bindingAfter ws' (bindingAfter ws phone) := by
  simp [bindingAfter]

theorem agree_append :
    Agree linkedAt phone (ws ++ ws') ↔
      Agree linkedAt phone ws ∧ Agree linkedAt (bindingAfter ws phone) ws' := by
  induction ws generalizing phone with
  | nil => simp [Agree, bindingAfter]
  | cons w ws ih =>
    simp only [List.cons_append, Agree, ih, and_assoc]
    rfl

theorem Agree.congr (h : Agree linkedAt phone ws) (hsame : ∀ w ∈ ws, linkedAt' w.1 = linkedAt w.1) :
    Agree linkedAt' phone ws := by
  induction ws generalizing phone with
  | nil => trivial
  | cons w ws ih =>
    constructor
    . rw [hsame w List.mem_cons_self]
      exact h.1
    . exact ih h.2 fun w' hw' => hsame w' (List.mem_cons_of_mem _ hw')

theorem bindingAfter_unready (h : ∀ w ∈ ws, ∀ p, w.2 ≠ .ready p) :
    bindingAfter ws phone = phone ∨ bindingAfter ws phone = none := by
  induction ws generalizing phone with
  | nil => exact .inl rfl
  | cons w ws ih =>
    have hrest {phone : Option Jid} : bindingAfter ws phone = phone ∨ bindingAfter ws phone = none :=
      ih fun w' hw' => h w' (List.mem_cons_of_mem _ hw')
    have hstep : bindingAfter (w :: ws) phone = bindingAfter ws (w.2.binding phone) := rfl
    rw [hstep]
    cases hwrite : w.2 with
    | ready p => exact absurd hwrite (h w List.mem_cons_self p)
    | status => exact hrest
    | clearPhone => exact .inr (or_self_iff.mp hrest)

theorem agree_unready (h : ∀ w ∈ ws, ∀ p, w.2 ≠ .ready p) : Agree linkedAt phone ws := by
  induction ws generalizing phone with
  | nil => trivial
  | cons w ws ih =>
    refine ⟨?_, ih fun w' hw' => h w' (List.mem_cons_of_mem _ hw')⟩
    rintro q ⟨_, _, p, hp, _⟩
    exact absurd hp (h w List.mem_cons_self p)

theorem mem_number {i : Nat} {sent : List Write} {w : Nat × Write} (h : w ∈ State.number i sent) : w.2 ∈ sent := by
  have := List.mem_map_of_mem (f := Prod.snd) h
  rwa [State.snd_number] at this

theorem phoneWrites_append {sent : List Write} (hwrites : s'.writes = s.writes ++ State.number s.issued sent) :
    s'.phoneWrites = s.phoneWrites ++ (State.number s.issued sent).filter fun w => w.2.binds := by
  simp [State.phoneWrites, hwrites]

theorem binding_quiet {sent : List Write} (hphone : s'.phone = s.phone ∨ s'.phone = none)
    (hwrites : s'.writes = s.writes ++ State.number s.issued sent) (hsent : ∀ w ∈ sent, ∀ p, w ≠ .ready p) {q : Jid}
    (h : s'.binding = some q) : s.binding = some q := by
  rcases hphone with hphone | hphone
  . unfold State.binding at h ⊢
    rw [hphone, phoneWrites_append hwrites] at h
    cases hrow : s.phone with
    | none => simp [hrow] at h
    | some phone =>
      rw [hrow, Option.bind_some, bindingAfter_append] at h
      rw [Option.bind_some]
      have hunready : ∀ w ∈ (State.number s.issued sent).filter (fun w => w.2.binds), ∀ p, w.2 ≠ .ready p :=
        fun w hw p => hsent w.2 (mem_number (List.mem_filter.mp hw).1) p
      rcases @bindingAfter_unready _ (bindingAfter s.phoneWrites phone) hunready with heq | heq
      . rw [← heq]
        exact h
      . simp [heq] at h
  . simp [State.binding, hphone] at h

theorem agree_quiet {sent : List Write} (hphone : s'.phone = s.phone ∨ s'.phone = none)
    (hwrites : s'.writes = s.writes ++ State.number s.issued sent) (hsent : ∀ w ∈ sent, ∀ p, w ≠ .ready p)
    (h : ∀ phone, s.phone = some phone → Agree linkedAt phone s.phoneWrites) :
    ∀ phone, s'.phone = some phone → Agree linkedAt phone s'.phoneWrites := by
  intro phone hrow
  rcases hphone with hphone | hphone
  . rw [phoneWrites_append hwrites, agree_append]
    refine ⟨h phone (hphone ▸ hrow), agree_unready ?_⟩
    exact fun w hw p => hsent w.2 (mem_number (List.mem_filter.mp hw).1) p
  . simp [hphone] at hrow

theorem find_write (hnumbered : s.Numbered) {w : Nat × Write} (h : w ∈ s.writes) :
    s.writes.find? (fun w' => w'.1 = w.1) = some w := by
  have hnodup : (s.writes.map Prod.fst).Nodup := hnumbered.ordered.imp Nat.ne_of_lt
  cases hfind : s.writes.find? fun w' => w'.1 = w.1 with
  | none =>
    rw [List.find?_eq_none] at hfind
    simpa using hfind w h
  | some w' =>
    have hnumber : w'.1 = w.1 := by simpa using List.find?_some hfind
    rw [List.inj_on_of_nodup_map hnodup (List.mem_of_find?_eq_some hfind) h hnumber]

theorem settle_phone {i : Nat} (hnumbered : s.Numbered) (h : s.phoneInOrder i = true) :
    ((s.settle i false).phoneWrites = s.phoneWrites ∧ (s.settle i false).phone = s.phone) ∨
      ∃ w, s.phoneWrites = (i, w) :: (s.settle i false).phoneWrites ∧
        (s.settle i false).phone = s.phone.map w.binding := by
  have hrest : (s.settle i false).phoneWrites = s.phoneWrites.filter fun w => w.1 != i := by
    simp [State.phoneWrites, State.settle, List.filter_filter, Bool.and_comm]
  rw [State.phoneInOrder, Bool.or_eq_true] at h
  rcases h with h | h
  . left
    constructor
    . rw [hrest, List.filter_eq_self]
      exact List.all_eq_true.mp h
    . simp only [State.phone, State.settle, Bool.false_eq_true, if_false]
      cases hfind : s.writes.find? fun w => w.1 = i with
      | none => rfl
      | some w =>
        have hbinds : w.2.binds = false := by
          rw [Bool.eq_false_iff]
          intro hbinds
          have hw : w ∈ s.phoneWrites := List.mem_filter.mpr ⟨List.mem_of_find?_eq_some hfind, hbinds⟩
          have hne := List.all_eq_true.mp h w hw
          have hnumber := List.find?_some hfind
          simp_all
        rw [Option.map_map]
        congr 1
        funext row
        rw [Function.comp, Write.apply_phone]
        cases hwrite : w.2 with
        | status => rfl
        | ready | clearPhone => simp [Write.binds, hwrite] at hbinds
  . right
    cases hwrites : s.phoneWrites with
    | nil => simp [hwrites] at h
    | cons w ws =>
      rcases w with ⟨j, w⟩
      simp only [hwrites, List.head?_cons, Option.any_some, decide_eq_true_eq] at h
      subst h
      have hmem : (j, w) ∈ s.writes := (List.mem_filter.mp (hwrites ▸ List.mem_cons_self)).1
      refine ⟨w, ?_, ?_⟩
      . have hordered : (s.phoneWrites.map Prod.fst).Pairwise (· < ·) :=
          hnumbered.ordered.sublist (List.filter_sublist.map _)
        rw [hwrites, List.map_cons, List.pairwise_cons] at hordered
        have hothers : ws.filter (fun w => w.1 != j) = ws := by
          rw [List.filter_eq_self]
          intro w' hw'
          have := hordered.1 w'.1 (List.mem_map_of_mem hw')
          simp only [bne_iff_ne]
          omega
        rw [hrest, hwrites, List.filter_cons, if_neg (by simp), hothers]
      . simp only [State.phone, State.settle, Bool.false_eq_true, if_false, find_write hnumbered hmem, Option.map_map]
        congr 1
        funext row
        exact w.apply_phone row

/-- The number of the row stays what it is to become when a write takes effect. -/
theorem binding_settle {i : Nat} (hnumbered : s.Numbered) (h : s.phoneInOrder i = true) :
    (s.settle i false).binding = s.binding := by
  unfold State.binding
  rcases settle_phone hnumbered h with ⟨hwrites, hphone⟩ | ⟨w, hwrites, hphone⟩
  . rw [hwrites, hphone]
  . rw [hwrites, hphone, Option.bind_map]
    rfl

theorem agree_settle {i : Nat} (hnumbered : s.Numbered) (h : s.phoneInOrder i = true)
    (hagree : ∀ phone, s.phone = some phone → Agree linkedAt phone s.phoneWrites) :
    ∀ phone, (s.settle i false).phone = some phone → Agree linkedAt phone (s.settle i false).phoneWrites := by
  intro phone hrow
  rcases settle_phone hnumbered h with ⟨hwrites, hphone⟩ | ⟨w, hwrites, hphone⟩
  . rw [hwrites]
    exact hagree phone (hphone ▸ hrow)
  . rw [hphone, Option.map_eq_some_iff] at hrow
    rcases hrow with ⟨phone', hrow, rfl⟩
    have := hagree phone' hrow
    rw [hwrites] at this
    exact this.2

end Writes

section Steps

variable {n : Node} {s : State} {l : Loc} {x : Answer}

theorem sends_unready (pt : Place) (x : Answer) (s : State) (n : Node) :
    ∀ w ∈ pt.sends x s n, ∀ p, w ≠ .ready p := by
  have hpersist (status : SessionStatus) : ∀ w ∈ n.persistStatus status, ∀ p, w ≠ .ready p := by
    unfold Node.persistStatus
    split <;> simp
  have hexhausted : ∀ w ∈ n.exhaustedWrites, ∀ p, w ≠ .ready p := by
    unfold Node.exhaustedWrites
    split
    . exact hpersist _
    . simp
  cases pt with
  | startFailedTeardown e => exact hpersist _
  | retireMark v => cases v <;> simp only [Place.sends] <;> (try split) <;> simp
  | retireTeardown v e => simp only [Place.sends]; split <;> simp
  | retireStatus v e w => cases v <;> simp only [Place.sends] <;> (try split) <;> simp
  | deleteFenceAgain e => cases e <;> simp only [Place.sends] <;> (try split) <;> simp
  | rebindTeardown e =>
    simp only [Place.sends]
    split
    . exact hpersist _
    . simp
  | disconnected e unlink session =>
    simp only [Place.sends, Node.disconnectedWrites]
    split
    . intro w hw
      rw [List.mem_append, List.mem_cons] at hw
      rcases hw with hw | rfl | hw
      . split at hw
        . simp only [List.mem_singleton] at hw
          simp [hw]
        . simp at hw
      . simp
      . exact hexhausted w hw
    . simp
  | reconnectLaunched k e =>
    simp only [Place.sends]
    split
    . exact hpersist _
    . simp
  | reconnectFailed k session launched err =>
    simp only [Place.sends, Node.reconnectFailedWrites]
    split
    . split
      . exact hpersist _
      . split
        . simp
        . exact hexhausted
    . simp
  | _ => simp [Place.sends]

theorem event_sends_unready {v : Event} (hv : ∀ p e phone, v ≠ .ready p e phone) (n : Node) :
    ∀ w ∈ v.sends n, ∀ p, w ≠ .ready p := by
  have hpersist (status : SessionStatus) : ∀ w ∈ n.persistStatus status, ∀ p, w ≠ .ready p := by
    unfold Node.persistStatus
    split <;> simp
  cases v with
  | ready p e phone => exact absurd rfl (hv p e phone)
  | qrCode | stateChanged | error =>
    simp only [Event.sends]
    split
    . exact hpersist _
    . simp
  | _ => simp [Event.sends]

theorem effect_phone : (effect l x s).phone = s.phone ∨ (effect l x s).phone = none := by
  have hupdate {guard : Session → Bool} {f : Session → Session} (hf : ∀ row, (f row).phone = row.phone) :
      (s.updateRow guard f).map Session.phone = s.phone := by
    rw [State.updateRow, State.phone, Option.map_map]
    congr 1
    funext row
    rw [Function.comp]
    split
    . exact hf row
    . rfl
  unfold State.phone
  rw [effect_row]
  split
  . exact .inl rfl
  . rcases l with ⟨p, pt⟩
    cases pt with
    | deleteRow => exact .inr rfl
    | claim | release | renewUpdate | sweepCorrect => exact .inl (hupdate fun _ => rfl)
    | _ => exact .inl rfl

/-- The turns that build an engine from a row. -/
def Place.builds (pt : Place) : Option Session :=
  match pt with
  | .startCreate session | .reconnectCreate _ session => some session
  | _ => none

theorem memory_engine {pt : Place} (hpt : pt.builds = none) :
    ((pt.memory x s n).engine = n.engine ∨ (pt.memory x s n).engine = none) ∧
      (pt.memory x s n).created = n.created ∧
      ∀ e, ((pt.memory x s n).engines e).previousPhone = (n.engines e).previousPhone := by
  cases hregisters : pt.registers with
  | false =>
    have hshrinks := Node.Shrinks.memory (n := n) hregisters x s
    exact ⟨hshrinks.engine, hshrinks.created, hshrinks.phone⟩
  | true =>
    cases pt with
    | startReserve | startRelease => exact ⟨.inl rfl, rfl, fun _ => rfl⟩
    | startCreate | reconnectCreate => simp [Place.builds] at hpt
    | _ => contradiction

/-- A new engine is registered with the phone of the row it is built from. -/
theorem memory_builds {pt : Place} {session : Session} (hpt : pt.builds = some session) :
    (pt.memory x s n).engine = some n.created ∧ (pt.memory x s n).created = n.created + 1 ∧
      ((pt.memory x s n).engines n.created).previousPhone = session.phone := by
  cases pt with
  | startCreate session' | reconnectCreate k session' =>
    simp only [Place.builds, Option.some.injEq] at hpt
    subst hpt
    simp [Place.memory, Node.createEngine, Node.setReconnect, Node.setEngine, Node.setState]
  | _ => simp [Place.builds] at hpt

theorem event_engine {v : Event} {p : Nat} (hv : v.oneProcess p = true) (n : Node) : n.Shrinks (v.memory n) := by
  apply Node.Shrinks.event
  . rintro q rfl
    contradiction
  . rintro q rfl
    contradiction

end Steps

abbrev reportsSystem : System State Answer Loc LifecycleError Event (Trace Reports) := sessionSystem noteReports

/-- An activation that has to take down the engine `e`, which reported a refused number. -/
def Local.Refusing (loc : Local) (p e : Nat) : Prop :=
  loc.last = none ∧ ∃ phone, loc.began = .ready p e phone ∧ (loc.origin.node p).refuses e phone = true

/-- What holds in every state: the registered engine holds the number that the row names. -/
structure Binding (p : Nat) (w : SessionWorld Reports) : Prop where
  fresh : Fresh w
  began : ∀ tid loc, w.hist.locals tid = some loc → loc.began.oneProcess p = true
  numbered : w.st.Numbered
  bounded : ∀ e, (w.st.node p).engine = some e → e < (w.st.node p).created
  agree : ∀ phone, w.st.phone = some phone → Agree w.hist.ext.linkedAt phone w.st.phoneWrites
  nonempty : ∀ e r, w.hist.ext.accepted e = some r → r ≠ []
  holds : ∀ e, (w.st.node p).engine = some e → ∀ q, w.st.binding = some q → q ≠ [] →
    ∃ r, holder w p e = some r ∧ r ≠ [] ∧ userPart q = userPart r
  tied : ∀ e, (w.st.node p).engine = some e → ∀ b, ((w.st.node p).engines e).previousPhone = some b → b ≠ [] →
    ∀ r, w.hist.ext.accepted e = some r → userPart r = userPart b
  told : ∀ e, (w.st.node p).engine = some e → ∀ r, w.hist.ext.reported e = some r →
    w.hist.ext.accepted e = some r ∨ ∃ tid loc, w.hist.locals tid = some loc ∧ loc.Refusing p e

namespace Binding

section Turns

variable {p tid : Nat} {w : SessionWorld Reports} {l : Loc} {x : Answer} {loc : Local}

theorem pid_oneProcess {v : Event} {q : Nat} (hv : v.oneProcess p = true) (hpid : v.pid? = some q) : q = p := by
  cases v <;> simp_all [Event.oneProcess, Event.pid?]

variable (hw : Binding p w) (hlocal : w.hist.locals tid = some loc) (hprecedes : loc.precedes l)
  (hcovers : loc.began.covers l.place = true) (hguard : guard l x w.st = true) (hok : Bound p w (.turn tid l x))
include hw hlocal hprecedes hguard

theorem node_turn : l.pid = p ∧ (effect l x w.st).node p = l.place.memory x w.st (w.st.node p) := by
  have hpid : l.pid = p := pid_oneProcess (hw.began tid loc hlocal) hprecedes.1
  refine ⟨hpid, ?_⟩
  rw [effect_node hguard, if_pos hpid.symm]

omit hw hlocal in
include hcovers in
theorem not_refusing {e : Nat} (hengine : (l.place.memory x w.st (w.st.node p)).engine = some e) :
    ¬loc.Refusing p e := by
  rintro ⟨hlast, phone, hbegan, _⟩
  rcases l with ⟨q, pt⟩
  rw [hbegan] at hcovers
  cases pt with
  | rebindTeardown e' =>
    rcases hprecedes.2 with ⟨_, phone', hbegan', _⟩
    rw [hbegan, Event.ready.injEq] at hbegan'
    rcases hbegan' with ⟨rfl, rfl, rfl⟩
    simp only [Place.memory, Node.deleteIfLive] at hengine
    split at hengine
    . contradiction
    . next hlive => simp [Node.isLive, hengine] at hlive
  | rebindStatus w' =>
    rcases hprecedes.2 with ⟨pt, x', s, hlast', _⟩
    simp [hlast] at hlast'
  | _ => simp [Event.covers, Event.launches, Event.starts, Event.claims, Event.retires, Event.releases,
      Event.dropsOut, Event.attempts] at hcovers

include hcovers in
theorem turn_keeps (hpt : l.place.builds = none) :
    Binding p (reportsSystem.after w (.turn tid l x) (effect l x w.st)) := by
  rcases hw.node_turn hlocal hprecedes hguard with ⟨hpid, hnode⟩
  rcases memory_engine (n := w.st.node p) (s := w.st) (x := x) hpt with ⟨hengine, hcreated, hphone⟩
  have hst : (reportsSystem.after w (.turn tid l x) (effect l x w.st)).st = effect l x w.st := rfl
  have hext : (reportsSystem.after w (.turn tid l x) (effect l x w.st)).hist.ext = w.hist.ext := by
    rcases l with ⟨q, pt⟩
    cases pt <;> first | rfl | simp [Place.builds] at hpt
  have hsame {e : Nat} (he : ((effect l x w.st).node p).engine = some e) : (w.st.node p).engine = some e := by
    rw [hnode] at he
    rcases hengine with heq | heq
    . rwa [heq] at he
    . simp [heq] at he
  have hsent := sends_unready l.place x w.st (w.st.node l.pid)
  constructor
  . exact hw.fresh.turn hlocal
  . exact forall_turn hlocal (hw.began tid loc hlocal) fun i loc' _ hi => hw.began i loc' hi
  . exact numbered_effect hguard hw.numbered
  . intro e he
    rw [hst, hnode, hcreated]
    exact hw.bounded e (hsame he)
  . rw [hext]
    exact agree_quiet effect_phone (effect_writes hguard) hsent hw.agree
  . rw [hext]
    exact hw.nonempty
  . intro e he q hq hne
    have hq := binding_quiet effect_phone (effect_writes hguard) hsent hq
    have hholder : holder (reportsSystem.after w (.turn tid l x) (effect l x w.st)) p e = holder w p e := by
      unfold holder
      rw [hext, hst, hnode, hphone]
    rw [hholder]
    exact hw.holds e (hsame he) q hq hne
  . intro e he b hb
    rw [hst, hnode, hphone] at hb
    rw [hext]
    exact hw.tied e (hsame he) b hb
  . intro e he r hr
    rw [hext] at hr ⊢
    rcases hw.told e (hsame he) r hr with haccepted | ⟨i, loc', hi, hrefusing⟩
    . exact .inl haccepted
    . refine .inr ⟨i, loc', ?_, hrefusing⟩
      rw [locals_turn hlocal]
      split
      . next htid =>
        have heq : loc' = loc := by
          rw [htid, hlocal] at hi
          exact (Option.some.inj hi).symm
        rw [hst, hnode] at he
        exact absurd (heq ▸ hrefusing) (not_refusing hprecedes hcovers hguard he)
      . exact hi

include hok in
theorem turn_builds {session : Session} (hpt : l.place.builds = some session) :
    Binding p (reportsSystem.after w (.turn tid l x) (effect l x w.st)) := by
  rcases hw.node_turn hlocal hprecedes hguard with ⟨hpid, hnode⟩
  rcases memory_builds (n := w.st.node p) (s := w.st) (x := x) hpt with ⟨hengine, hcreated, hphone⟩
  have hst : (reportsSystem.after w (.turn tid l x) (effect l x w.st)).st = effect l x w.st := rfl
  have hext : (reportsSystem.after w (.turn tid l x) (effect l x w.st)).hist.ext =
      w.hist.ext.created (w.st.node p).created := by
    rcases l with ⟨q, pt⟩
    subst hpid
    cases pt <;> first | rfl | simp [Place.builds] at hpt
  have hnew {e : Nat} (he : ((effect l x w.st).node p).engine = some e) : e = (w.st.node p).created := by
    rw [hnode, hengine] at he
    exact (Option.some.inj he).symm
  have hsent := sends_unready l.place x w.st (w.st.node l.pid)
  constructor
  . exact hw.fresh.turn hlocal
  . exact forall_turn hlocal (hw.began tid loc hlocal) fun i loc' _ hi => hw.began i loc' hi
  . exact numbered_effect hguard hw.numbered
  . intro e he
    rw [hst, hnode, hcreated, hnew he]
    omega
  . rw [hext]
    exact agree_quiet effect_phone (effect_writes hguard) hsent hw.agree
  . intro e r hr
    rw [hext] at hr
    simp only [Reports.created] at hr
    split at hr
    . contradiction
    . exact hw.nonempty e r hr
  . intro e he q hq hne
    have hq := binding_quiet effect_phone (effect_writes hguard) hsent hq
    have hknows : l.place.knows w.st.binding = true := hok.2
    have hknows : session.phone.any fun r => r ≠ [] && userPart q = userPart r := by
      rcases l with ⟨_, pt⟩
      cases pt <;> simp_all [Place.builds, Place.knows]
    simp only [Option.any_eq_true, Bool.and_eq_true, decide_eq_true_eq] at hknows
    rcases hknows with ⟨r, hr, hknows⟩
    refine ⟨r, ?_, hknows⟩
    unfold holder
    rw [hext, hst, hnode, hnew he, hphone]
    simp [Reports.created, hr]
  . intro e he b _ _ r hr
    rw [hext] at hr
    simp [Reports.created, hnew he] at hr
  . intro e he r hr
    rw [hext] at hr
    simp [Reports.created, hnew he] at hr

include hcovers hok in
theorem turn : Binding p (reportsSystem.after w (.turn tid l x) (effect l x w.st)) := by
  cases hpt : l.place.builds with
  | none => exact hw.turn_keeps hlocal hprecedes hcovers hguard hpt
  | some session => exact hw.turn_builds hlocal hprecedes hguard hok hpt

end Turns

section Events

variable {p : Nat} {w : SessionWorld Reports} {v : Event}

/-- The activations of refused numbers go on. -/
theorem told_event (hw : Binding p w) {e : Nat} {s : State}
    (h : ∃ tid loc, w.hist.locals tid = some loc ∧ loc.Refusing p e) :
    ∃ tid loc, (reportsSystem.after w (.event w.started v) s).hist.locals tid = some loc ∧ loc.Refusing p e := by
  rcases h with ⟨tid, loc, hlocal, hrefusing⟩
  refine ⟨tid, loc, ?_, hrefusing⟩
  rw [locals_event, if_neg (Nat.ne_of_lt (hw.fresh.lt hlocal))]
  exact hlocal

theorem node_event (hv : v.oneProcess p = true) :
    (w.st.node p).Shrinks ((v.effect w.st).node p) := by
  rw [Event.effect_node]
  split
  . exact event_engine hv _
  . exact Node.Shrinks.refl _

theorem event_other (hw : Binding p w) (hv : v.oneProcess p = true)
    (haccepted : (noteReports (.event w.started v) w.st (v.effect w.st) w.hist.ext).accepted = w.hist.ext.accepted)
    (hreported : (noteReports (.event w.started v) w.st (v.effect w.st) w.hist.ext).reported = w.hist.ext.reported)
    (hagree : ∀ phone, (v.effect w.st).phone = some phone →
      Agree (noteReports (.event w.started v) w.st (v.effect w.st) w.hist.ext).linkedAt phone (v.effect w.st).phoneWrites)
    (hbinding : ∀ q, (v.effect w.st).binding = some q → w.st.binding = some q) :
    Binding p (reportsSystem.after w (.event w.started v) (v.effect w.st)) := by
  have hshrinks := node_event (w := w) hv
  have hsame {e : Nat} (he : ((v.effect w.st).node p).engine = some e) : (w.st.node p).engine = some e := by
    rcases hshrinks.engine with heq | heq
    . rwa [heq] at he
    . simp [heq] at he
  have hst : (reportsSystem.after w (.event w.started v) (v.effect w.st)).st = v.effect w.st := rfl
  constructor
  . exact hw.fresh.event
  . exact forall_event hv hw.began
  . exact v.numbered hw.numbered
  . intro e he
    rw [hst, hshrinks.created]
    exact hw.bounded e (hsame he)
  . exact hagree
  . intro e r hr
    exact hw.nonempty e r (haccepted ▸ hr)
  . intro e he q hq hne
    have hholder : holder (reportsSystem.after w (.event w.started v) (v.effect w.st)) p e = holder w p e := by
      have haccepted : (reportsSystem.after w (.event w.started v) (v.effect w.st)).hist.ext.accepted =
        w.hist.ext.accepted := haccepted
      unfold holder
      rw [haccepted, hst, hshrinks.phone]
    rw [hholder]
    exact hw.holds e (hsame he) q (hbinding q hq) hne
  . intro e he b hb hne r hr
    rw [hst, hshrinks.phone] at hb
    exact hw.tied e (hsame he) b hb hne r (haccepted ▸ hr)
  . intro e he r hr
    rcases hw.told e (hsame he) r (hreported ▸ hr) with hr | hrefusing
    . exact .inl (haccepted ▸ hr)
    . exact .inr (hw.told_event hrefusing)

theorem event_database {i : Nat} (hw : Binding p w) (hok : OneProcess p w (.event w.started (.database i false))) :
    Binding p (reportsSystem.after w (.event w.started (.database i false)) (w.st.settle i false)) := by
  refine hw.event_other (v := .database i false) hok.1 rfl rfl ?_ ?_
  . exact agree_settle hw.numbered hok.2 hw.agree
  . intro q hq
    rwa [Event.effect, binding_settle hw.numbered hok.2] at hq

theorem event_quiet (hw : Binding p w) (hv : v.oneProcess p = true) (hready : ∀ q e phone, v ≠ .ready q e phone)
    (hdatabase : ∀ i fault, v ≠ .database i fault) :
    Binding p (reportsSystem.after w (.event w.started v) (v.effect w.st)) := by
  have hphone : (v.effect w.st).phone = w.st.phone := by
    unfold State.phone
    rw [v.effect_row w.st hdatabase]
  have hsent : ∀ write ∈ (v.pid?.map fun q => v.sends (w.st.node q)).getD [], ∀ phone, write ≠ .ready phone := by
    cases v.pid? with
    | none => simp
    | some q => exact event_sends_unready hready _
  have hext : (noteReports (.event w.started v) w.st (v.effect w.st) w.hist.ext) = w.hist.ext ∨
      (noteReports (.event w.started v) w.st (v.effect w.st) w.hist.ext) = w.hist.ext.unlinked := by
    unfold noteReports
    split
    . next heq =>
      simp only [Act.event.injEq] at heq
      exact absurd heq.2 (hready _ _ _)
    . exact .inr rfl
    . exact .inr rfl
    . exact .inr rfl
    . contradiction
    . contradiction
    . exact .inl rfl
  have hagree := agree_quiet (.inl hphone) (v.effect_writes w.st hdatabase) hsent hw.agree
  have hbinding := fun q => binding_quiet (q := q) (.inl hphone) (v.effect_writes w.st hdatabase) hsent
  rcases hext with hext | hext
  . refine hw.event_other hv (by rw [hext]) (by rw [hext]) ?_ hbinding
    rw [hext]
    exact hagree
  . refine hw.event_other hv (by rw [hext]; rfl) (by rw [hext]; rfl) ?_ hbinding
    rw [hext]
    exact hagree

section Ready

variable {e : Nat} {phone : Jid}

/-- The callback of an engine that reported `phone` is accepted. -/
def accepts (n : Node) (e : Nat) (phone : Jid) : Bool := n.isLive e && !n.refuses e phone

theorem phoneWrites_ready (s : State) : (Event.effect (.ready p e phone) s).phoneWrites =
    s.phoneWrites ++ if accepts (s.node p) e phone then [(s.issued, .ready phone)] else [] := by
  have hsends : (Event.ready p e phone).sends (s.node p) =
    if accepts (s.node p) e phone then [.ready phone] else [] := rfl
  rw [phoneWrites_append (Event.effect_writes _ s (by simp)), Event.pid?, Option.map_some, Option.getD_some, hsends]
  cases accepts (s.node p) e phone <;> rfl

theorem oneProcess_ready : (Event.ready p e phone).oneProcess p = true := by simp [Event.oneProcess, Event.pid?]

variable (hw : Binding p w)
include hw

theorem event_empty :
    Binding p (reportsSystem.after w (.event w.started (.ready p e [])) (Event.effect (.ready p e []) w.st)) := by
  have hext : noteReports (.event w.started (.ready p e [])) w.st (Event.effect (.ready p e []) w.st) w.hist.ext =
      w.hist.ext := by simp [noteReports, Reports.ready]
  have hphone : (Event.effect (.ready p e []) w.st).phone = w.st.phone := rfl
  refine hw.event_other oneProcess_ready (by rw [hext]) (by rw [hext]) ?_ ?_
  . intro ph hrow
    rw [hext, phoneWrites_ready, agree_append]
    refine ⟨hw.agree ph (hphone ▸ hrow), ?_⟩
    split
    . refine ⟨?_, trivial⟩
      rintro q ⟨_, _, r, hr, hne, _⟩
      rw [Write.ready.injEq] at hr
      exact absurd hr.symm hne
    . trivial
  . intro q hq
    unfold State.binding at hq ⊢
    rw [hphone, phoneWrites_ready] at hq
    cases hrow : w.st.phone with
    | none => simp [hrow] at hq
    | some ph =>
      rw [hrow, Option.bind_some, bindingAfter_append] at hq
      split at hq
      . exact hq
      . exact hq

/-- The linked accounts are only looked up under the numbers of writes in flight. -/
theorem agree_ready {b : Reports} (hlinkedAt : ∀ i, i ≠ w.st.issued → b.linkedAt i = w.hist.ext.linkedAt i) :
    ∀ phone, w.st.phone = some phone → Agree b.linkedAt phone w.st.phoneWrites := by
  intro phone hrow
  apply (hw.agree phone hrow).congr
  intro write hwrite
  apply hlinkedAt
  have := hw.numbered.issued write.1 (List.mem_map_of_mem (List.mem_filter.mp hwrite).1)
  omega

theorem event_rejected (hphone : phone ≠ []) (haccepts : accepts (w.st.node p) e phone = false) :
    Binding p (reportsSystem.after w (.event w.started (.ready p e phone)) (Event.effect (.ready p e phone) w.st)) := by
  have hv : (Event.ready p e phone).oneProcess p = true := oneProcess_ready
  have hshrinks := node_event (w := w) hv
  have hst : (reportsSystem.after w (.event w.started (.ready p e phone)) (Event.effect (.ready p e phone) w.st)).st =
      Event.effect (.ready p e phone) w.st := rfl
  have hext : (reportsSystem.after w (.event w.started (.ready p e phone))
      (Event.effect (.ready p e phone) w.st)).hist.ext = w.hist.ext.ready (w.st.node p) w.st.issued e phone := rfl
  have haccepted : (w.hist.ext.ready (w.st.node p) w.st.issued e phone).accepted = w.hist.ext.accepted := by
    unfold accepts at haccepts
    simp [Reports.ready, hphone, haccepts]
  have hrow : (Event.effect (.ready p e phone) w.st).phone = w.st.phone := rfl
  have hwrites : (Event.effect (.ready p e phone) w.st).phoneWrites = w.st.phoneWrites := by
    simp [phoneWrites_ready, haccepts]
  have hsame {i : Nat} (hi : ((Event.effect (.ready p e phone) w.st).node p).engine = some i) :
      (w.st.node p).engine = some i := by
    rcases hshrinks.engine with heq | heq
    . rwa [heq] at hi
    . simp [heq] at hi
  constructor
  . exact hw.fresh.event
  . exact forall_event hv hw.began
  . exact (Event.ready p e phone).numbered hw.numbered
  . intro i hi
    rw [hst, hshrinks.created]
    exact hw.bounded i (hsame hi)
  . rw [hst, hrow, hwrites, hext]
    apply hw.agree_ready
    intro i hi
    simp [Reports.ready, hphone, hi]
  . rw [hext, haccepted]
    exact hw.nonempty
  . intro i hi q hq hne
    have hholder : holder (reportsSystem.after w (.event w.started (.ready p e phone))
        (Event.effect (.ready p e phone) w.st)) p i = holder w p i := by
      unfold holder
      rw [hext, haccepted, hst, hshrinks.phone]
    rw [hholder]
    refine hw.holds i (hsame hi) q ?_ hne
    rwa [hst, State.binding, hrow, hwrites] at hq
  . intro i hi b hb hne r hr
    rw [hst, hshrinks.phone] at hb
    rw [hext, haccepted] at hr
    exact hw.tied i (hsame hi) b hb hne r hr
  . intro i hi r hr
    rw [hext] at hr ⊢
    rw [haccepted]
    by_cases hie : i = e
    . subst hie
      right
      refine ⟨w.started, Local.first (.ready p i phone) w.st, ?_, rfl, phone, rfl, ?_⟩
      . rw [locals_event, if_pos rfl]
      . have hlive : (w.st.node p).isLive i = true := by
          simp [Node.isLive, hsame hi]
        simpa [accepts, hlive, Local.first] using haccepts
    . have hr : w.hist.ext.reported i = some r := by simpa [Reports.ready, hphone, hie] using hr
      rcases hw.told i (hsame hi) r hr with haccepted | hrefusing
      . exact .inl haccepted
      . exact .inr (hw.told_event hrefusing)

theorem accepted_same (haccepts : accepts (w.st.node p) e phone = true)
    (hreturns : (Event.ready p e phone).returns (w.st.node p) w.hist.ext = true) (hphone : phone ≠ []) {q : Jid}
    (hq : w.st.binding = some q) (hne : q ≠ []) :
    userPart phone = userPart q ∨ w.hist.ext.linked (userPart q) = false := by
  simp only [accepts, Bool.and_eq_true, Bool.not_eq_true', Node.isLive, decide_eq_true_eq, Node.refuses,
    Bool.and_eq_false_iff] at haccepts
  rcases haccepts with ⟨hengine, hmismatch⟩
  have hmismatch : ((w.st.node p).engines e).mismatch phone = false := by
    rcases hmismatch with hlive | hmismatch
    . simp [hengine] at hlive
    . exact hmismatch
  rcases hw.holds e hengine q hq hne with ⟨r, hholder, hr, hqr⟩
  -- an engine that was built with a number lets only that one pass
  cases hbuilt : ((w.st.node p).engines e).previousPhone.any (· ≠ []) with
  | true =>
    simp only [Option.any_eq_true, decide_eq_true_eq] at hbuilt
    rcases hbuilt with ⟨b, hb, hbne⟩
    left
    have hpass : userPart phone = userPart b := by
      simpa [Engine.mismatch, hb, hbne, hphone] using hmismatch
    have hrb : userPart r = userPart b := by
      unfold holder at hholder
      split at hholder
      . next haccepted =>
        rw [Option.some.injEq] at hholder
        exact hw.tied e hengine b hb hbne r (hholder ▸ haccepted)
      . rw [hb, Option.some.injEq] at hholder
        rw [hholder]
    rw [hpass, hqr, hrb]
  | false =>
    unfold holder at hholder
    split at hholder
    . next haccepted =>
      rw [Option.some.injEq] at hholder
      subst hholder
      simp only [Event.returns, hbuilt, Bool.false_or, hphone, decide_false, haccepted, Option.all_some, Bool.or_eq_true,
        decide_eq_true_eq, Bool.not_eq_true'] at hreturns
      rw [hqr]
      exact hreturns
    . simp [hholder, hr] at hbuilt

theorem event_accepted (hphone : phone ≠ []) (haccepts : accepts (w.st.node p) e phone = true)
    (hreturns : (Event.ready p e phone).returns (w.st.node p) w.hist.ext = true) :
    Binding p (reportsSystem.after w (.event w.started (.ready p e phone)) (Event.effect (.ready p e phone) w.st)) := by
  have hv : (Event.ready p e phone).oneProcess p = true := oneProcess_ready
  have hshrinks := node_event (w := w) hv
  have hst : (reportsSystem.after w (.event w.started (.ready p e phone)) (Event.effect (.ready p e phone) w.st)).st =
      Event.effect (.ready p e phone) w.st := rfl
  have hext : (reportsSystem.after w (.event w.started (.ready p e phone))
      (Event.effect (.ready p e phone) w.st)).hist.ext = w.hist.ext.ready (w.st.node p) w.st.issued e phone := rfl
  have hengine : (w.st.node p).engine = some e := by
    simp only [accepts, Bool.and_eq_true, Node.isLive, decide_eq_true_eq] at haccepts
    exact haccepts.1
  have hrow : (Event.effect (.ready p e phone) w.st).phone = w.st.phone := rfl
  have hwrites : (Event.effect (.ready p e phone) w.st).phoneWrites =
      w.st.phoneWrites ++ [(w.st.issued, .ready phone)] := by
    rw [phoneWrites_ready, if_pos haccepts]
  have haccepted (i : Nat) : (w.hist.ext.ready (w.st.node p) w.st.issued e phone).accepted i =
      if i = e then some phone else w.hist.ext.accepted i := by
    unfold accepts at haccepts
    simp [Reports.ready, hphone, haccepts]
  have hsame {i : Nat} (hi : ((Event.effect (.ready p e phone) w.st).node p).engine = some i) : i = e := by
    rcases hshrinks.engine with heq | heq
    . rw [heq, hengine] at hi
      exact (Option.some.inj hi).symm
    . simp [heq] at hi
  constructor
  . exact hw.fresh.event
  . exact forall_event hv hw.began
  . exact (Event.ready p e phone).numbered hw.numbered
  . intro i hi
    rw [hst, hshrinks.created, hsame hi]
    exact hw.bounded e hengine
  . intro ph hph
    rw [hst, hrow] at hph
    rw [hst, hwrites, hext, agree_append]
    refine ⟨?_, ?_, trivial⟩
    . apply hw.agree_ready ?_ ph hph
      intro i hi
      simp [Reports.ready, hphone, hi]
    . rintro q ⟨hq, hne, r, hr, _, hdiffers⟩
      rw [Write.ready.injEq] at hr
      subst hr
      have hbinding : w.st.binding = some q := by rw [State.binding, hph, Option.bind_some, hq]
      rcases hw.accepted_same haccepts hreturns hphone hbinding hne with hsame | hunlinked
      . exact absurd hsame hdiffers
      . simpa [Reports.ready, hphone] using hunlinked
  . intro i r hr
    rw [hext, haccepted] at hr
    split at hr
    . rw [Option.some.injEq] at hr
      exact hr ▸ hphone
    . exact hw.nonempty i r hr
  . intro i hi q hq _
    refine ⟨phone, ?_, hphone, ?_⟩
    . unfold holder
      rw [hext, haccepted, if_pos (hsame hi)]
    . rw [hst, State.binding, hrow, hwrites] at hq
      cases hph : w.st.phone with
      | none => simp [hph] at hq
      | some ph =>
        simp only [hph, Option.bind_some, bindingAfter_append] at hq
        have : q = phone := by simpa [bindingAfter, Write.binding, hphone] using hq.symm
        rw [this]
  . intro i hi b hb hne r hr
    have hie := hsame hi
    subst hie
    rw [hext, haccepted, if_pos rfl, Option.some.injEq] at hr
    rw [hst, hshrinks.phone] at hb
    subst hr
    unfold accepts at haccepts
    simp [Node.refuses, Node.isLive, hengine, Engine.mismatch, hb, hne, hphone] at haccepts
    exact haccepts
  . intro i hi r hr
    have hie := hsame hi
    subst hie
    rw [hext] at hr ⊢
    left
    rw [haccepted, if_pos rfl]
    simpa [Reports.ready, hphone] using hr

end Ready

theorem event (hw : Binding p w) (hok : Bound p w (.event w.started v)) :
    Binding p (reportsSystem.after w (.event w.started v) (v.effect w.st)) := by
  by_cases hready : ∃ q e phone, v = .ready q e phone
  . rcases hready with ⟨q, e, phone, rfl⟩
    have hq : q = p := pid_oneProcess hok.1.1 rfl
    subst hq
    by_cases hphone : phone = []
    . subst hphone
      exact hw.event_empty
    . cases haccepts : accepts (w.st.node q) e phone with
      | true => exact hw.event_accepted hphone haccepts hok.2
      | false => exact hw.event_rejected hphone haccepts
  . by_cases hdatabase : ∃ i fault, v = .database i fault
    . rcases hdatabase with ⟨i, fault, rfl⟩
      have hfault : fault = false := by simpa [Event.oneProcess] using hok.1.1
      subst hfault
      exact hw.event_database hok.1
    . exact hw.event_quiet hok.1.1 (fun q e phone heq => hready ⟨q, e, phone, heq⟩)
        fun i fault heq => hdatabase ⟨i, fault, heq⟩

end Events
end Binding

/--
The next write of the phone is that of a ready callback, number `i`, and stores the number of another
account than `q` over `q`.
-/
def State.relinks (s : State) (i : Nat) (q : Jid) : Prop :=
  s.phoneInOrder i = true ∧ ∃ w phone, (i, w) ∈ s.writes ∧ s.phone = some phone ∧ w.replaces phone q

/-- Nothing was reported yet: every number counts as linked. -/
def Reports.initial : Reports := ⟨fun _ => true, fun _ _ => true, fun _ => none, fun _ => none⟩

section Runs

variable {p : Nat} {init c : SessionConfig Reports}

theorem binding_of_reach (hpool : init.pool = []) (hlocals : ∀ tid, init.hist.locals tid = none)
    (hext : init.hist.ext = .initial) (hengine : (init.st.node p).engine = none) (hwrites : init.st.writes = [])
    (h : reportsSystem.Reach (Bound p) init c) : Binding p c.world := by
  have hnone {e : Nat} : (init.world.st.node p).engine = some e → False := by simp [Config.st_world, hengine]
  have hinit : Binding p init.world := by
    constructor
    . exact fun tid _ => hlocals tid
    . exact fun tid loc h => by simp [Config.world, hlocals] at h
    . constructor
      . simp [Config.st_world, hwrites]
      . simp [Config.st_world, hwrites]
    . exact fun e he => (hnone he).elim
    . intro phone _
      simp [Config.st_world, State.phoneWrites, hwrites, Agree]
    . intro e r hr
      simp [Config.world, hext, Reports.initial] at hr
    . exact fun e he => (hnone he).elim
    . exact fun e he => (hnone he).elim
    . exact fun e he => (hnone he).elim
  apply inv_of_reach hpool hinit ?_ ?_ h
  . exact fun w v hw hok _ => hw.event hok
  . exact fun w tid l x loc hw hok hlocal hprecedes hcovers hguard => hw.turn hlocal hprecedes hcovers hguard hok

theorem Binding.unlinked_of_relinks {w : SessionWorld Reports} (hw : Binding p w) {i : Nat} {q : Jid}
    (h : w.st.relinks i q) : w.hist.ext.linkedAt i (userPart q) = false := by
  rcases h with ⟨horder, write, phone, hmem, hphone, hreplaces⟩
  have hbinds : write.binds = true := by
    rcases hreplaces with ⟨_, _, r, rfl, _⟩
    rfl
  have hwrite : (i, write) ∈ w.st.phoneWrites := List.mem_filter.mpr ⟨hmem, hbinds⟩
  have hagree := hw.agree phone hphone
  rcases settle_phone hw.numbered horder with ⟨hwrites, _⟩ | ⟨write', hwrites, _⟩
  . -- the write leaves the list when it takes effect
    rw [← hwrites] at hwrite
    simp [State.phoneWrites, State.settle] at hwrite
  . have hmem' : (i, write') ∈ w.st.writes := (List.mem_filter.mp (hwrites ▸ List.mem_cons_self)).1
    have heq : write' = write := by
      have hfind : w.st.writes.find? (fun w' => w'.1 = i) = some (i, write') := find_write hw.numbered hmem'
      have hfind' : w.st.writes.find? (fun w' => w'.1 = i) = some (i, write) := find_write hw.numbered hmem
      simpa using hfind.symm.trans hfind'
    rw [hwrites, heq] at hagree
    exact hagree.1 q hreplaces

/-- Every engine that has to be taken down is out of the registry once all work has drained. -/
theorem not_refusing_of_drained (hpool : init.pool = []) (h : reportsSystem.Reach (Bound p) init c)
    (hw : Binding p c.world) (hdrained : c.drained = true) {tid e : Nat} {loc : Local}
    (hlocal : c.hist.locals tid = some loc) : ¬loc.Refusing p e := by
  rintro ⟨hlast, phone, hbegan, hrefuses⟩
  have hlt : tid < c.pool.length := hw.fresh.lt hlocal
  have hget : c.pool[tid]? = some c.pool[tid] := List.getElem?_eq_getElem hlt
  have hfinished : c.pool[tid].finished = true := List.all_eq_true.mp hdrained _ (List.getElem_mem hlt)
  rcases (holds_of_reach hpool h).finished hget hfinished with ⟨r, w, hrely, loc', hlocal', hpost⟩
  have heq : loc' = loc := by
    have hrely : c.hist.locals tid = w.hist.locals tid := hrely
    rw [hlocal, hlocal'] at hrely
    exact (Option.some.inj hrely).symm
  subst heq
  have := hpost.2 p e phone hbegan hrefuses
  simp [hlast] at this

/--
In such a run a ready write replaces a number by that of another account only if a logout or a terminal
unlink was reported after the number was last ready, and before the write was issued. Once all work has
drained and every write has taken effect, the registered engine last reported the account of the row.
-/
theorem account_kept (hpool : init.pool = []) (hlocals : ∀ tid, init.hist.locals tid = none)
    (hext : init.hist.ext = .initial) (hengine : (init.st.node p).engine = none) (hwrites : init.st.writes = [])
    (h : reportsSystem.Reach (Bound p) init c) :
    (∀ i q, c.st.relinks i q → c.hist.ext.linkedAt i (userPart q) = false) ∧
      (c.drained = true → c.st.writes = [] → ∀ e r row q, (c.st.node p).engine = some e →
        c.hist.ext.reported e = some r → c.st.row = some row → row.phone = some q → q ≠ [] → userPart q = userPart r) := by
  have hinv := binding_of_reach hpool hlocals hext hengine hwrites h
  constructor
  . exact fun i q hrelinks => hinv.unlinked_of_relinks hrelinks
  . intro hdrained hnone e r row q he hr hrow hq hne
    have hbinding : c.world.st.binding = some q := by
      simp [Config.st_world, State.binding, State.phone, State.phoneWrites, hrow, hnone, bindingAfter, hq]
    rcases hinv.told e he r hr with haccepted | ⟨tid, loc, hlocal, hrefusing⟩
    . rcases hinv.holds e he q hbinding hne with ⟨r', hholder, _, hsame⟩
      unfold holder at hholder
      rw [haccepted] at hholder
      exact Option.some.inj hholder ▸ hsame
    . exact absurd hrefusing (not_refusing_of_drained hpool h hinv hdrained hlocal)

/-- A process that has just booted, and a session with this row. -/
def idleReports (row : Session) : SessionConfig Reports where
  st := { idleState with row := some row }
  hist := ⟨fun _ => none, .initial⟩
  pool := []

/-- A linked session whose engine reports its number from another device, and after that another number. -/
theorem account_kept_rebind :
    ∃ c, reportsSystem.Reach (Bound 0) (idleReports ⟨.disconnected, some ['6', '2'], none, none, none⟩) c ∧
      c.drained = true ∧ c.hist.ext.reported 0 = some ['7', '1'] ∧ (c.st.node 0).engine ≠ some 0 := by
  have hrun : (reportsSystem.exec (Bound 0) (idleReports ⟨.disconnected, some ['6', '2'], none, none, none⟩)
      (launch 0 0 ++ settleStart 0 ++ [.event (.ready 0 0 ['6', '2', ':', '1']), .event (.database 1 false),
        .event (.ready 0 0 ['7', '1']), .turn 4 .ok])).map
      (fun c => (c.drained && c.st.writes = [], c.hist.ext.reported 0, c.st.row.bind Session.phone)) =
      some (true, some ['7', '1'], some ['6', '2', ':', '1']) := by
    decide +kernel
  rcases System.reach_of_exec_map hrun with ⟨c, hreach, hruns⟩
  simp only [Prod.mk.injEq, Bool.and_eq_true, decide_eq_true_eq, Option.bind_eq_some_iff] at hruns
  rcases hruns with ⟨⟨hdrained, hwrites⟩, hreported, row, hrow, hphone⟩
  refine ⟨c, hreach, hdrained, hreported, fun hengine => ?_⟩
  have hkept := account_kept rfl (fun _ => rfl) rfl rfl rfl hreach
  exact absurd (hkept.2 hdrained hwrites 0 _ row _ hengine hreported hrow hphone (by simp)) (by decide)

/--
The engine of an unlinked session gets ready and disconnects before the write of its number takes
effect: the reconnect attempt has read a row without a number, and its engine, built from that row,
replaces the account.
-/
theorem stale_row_rebinds :
    ∃ c, reportsSystem.Reach (OneProcess 0) (idleReports ⟨.disconnected, none, none, none, none⟩) c ∧
      c.st.relinks 4 ['6', '2'] ∧ c.hist.ext.linkedAt 4 (userPart ['6', '2']) = true := by
  have hrun : (reportsSystem.exec (OneProcess 0) (idleReports ⟨.disconnected, none, none, none, none⟩)
      (launch 0 0 ++ settleStart 0 ++ [.event (.ready 0 0 ['6', '2']), .event (.disconnected 0 0 false), .turn 3 .ok,
        .turn 3 .ok, .event (.database 1 false), .event (.database 2 false), .event (.timer 0 0), .turn 6 .ok,
        .turn 6 .ok, .turn 6 .ok, .event (.database 3 false), .turn 6 .ok, .turn 6 .ok, .turn 6 .ok, .turn 6 .ok,
        .event (.ready 0 1 ['7', '1'])])).map
      (fun c => (c.st.phoneInOrder 4 && c.hist.ext.linkedAt 4 ['6', '2'], c.st.writes, c.st.phone)) =
      some (true, [(4, .ready ['7', '1'])], some (some ['6', '2'])) := by
    decide +kernel
  rcases System.reach_of_exec_map hrun with ⟨c, hreach, hruns⟩
  simp only [Prod.mk.injEq, Bool.and_eq_true] at hruns
  rcases hruns with ⟨⟨horder, hlinked⟩, hwrites, hphone⟩
  refine ⟨c, hreach, ⟨horder, .ready ['7', '1'], some ['6', '2'], ?_, hphone, ?_⟩, hlinked⟩
  . simp [hwrites]
  . exact ⟨rfl, by simp, _, rfl, by simp, by decide⟩

end Runs
end OpenWA.Lifecycle
