import OpenWA.Async.Machine
import OpenWA.Js.Map
import OpenWA.Js.Text
import Mathlib.Data.List.Perm.Basic

/-!
This module contains the sliding window that bounds the handshakes of an address: its records, the
attempts they stand for, and the attempts that are given back.
-/

namespace OpenWA.Events

open Js Async

section Eviction

variable {κ α : Type}

/-- The first key is deleted as long as there are more than `bound`. -/
def evictOldest (bound : Nat) (entries : List (κ × α)) : List (κ × α) :=
  match entries with
  | [] => []
  | entry :: rest => if bound < rest.length + 1 then evictOldest bound rest else entry :: rest

theorem evictOldest_suffix (bound : Nat) (entries : List (κ × α)) :
    evictOldest bound entries <:+ entries := by
  induction entries with
  | nil => exact List.suffix_rfl
  | cons entry rest ih =>
    unfold evictOldest
    split
    . exact ih.trans (List.suffix_cons entry rest)
    . exact List.suffix_rfl

def evictOverflow (m : Map κ α) (maxKeys : Nat) : Map κ α :=
  ⟨evictOldest (max 1 maxKeys) m.entries,
    m.nodup.sublist ((evictOldest_suffix _ _).sublist.map _)⟩

theorem evictOverflow_of_size_le {m : Map κ α} {maxKeys : Nat} (h : m.size ≤ max 1 maxKeys) :
    evictOverflow m maxKeys = m := by
  rcases m with ⟨entries, hnodup⟩
  simp only [evictOverflow, Map.mk.injEq]
  cases entries with
  | nil => rfl
  | cons entry rest => exact if_neg (Nat.not_lt.mpr h)

variable [DecidableEq κ]

/-- Deleting a key and setting it again moves it to the end. -/
theorem size_touch (m : Map κ α) (k : κ) (x : α) :
    ((m.delete k).set k x).size = (m.delete k).size + 1 := by
  have hnone : k ∉ (m.delete k).entries.map (·.1) := by
    intro hmem
    have hget := (Map.get?_isSome_iff (m.delete k) k).mpr hmem
    simp at hget
  simp only [Map.size, Map.set, Map.setEntries_of_notMem hnone, List.length_append,
    List.length_singleton]

end Eviction

namespace Handshakes

structure SlidingWindowLimiter where
  max : Nat
  windowMs : Int
  maxKeys : Nat

/-- The limiter's own state is a map from a subject to the times of its records. -/
def allow (l : SlidingWindowLimiter) (t : Int) (hits : Map Text (List Int)) (subject : Text) :
    Bool × Map Text (List Int) :=
  let recent := ((hits.get? subject).getD []).filter fun ts => t - ts < l.windowMs
  let allowed := recent.length < l.max
  let recent := if allowed then recent ++ [t] else recent
  (allowed, evictOverflow ((hits.delete subject).set subject recent) l.maxKeys)

def refund (hits : Map Text (List Int)) (subject : Text) : Map Text (List Int) :=
  match hits.get? subject with
  | none => hits
  | some recent => if recent.isEmpty then hits else hits.set subject recent.dropLast

/-- An attempt that was allowed. -/
structure Attempt where
  subject : Text
  time : Int
  refunded : Bool
deriving DecidableEq

structure State where
  hits : Map Text (List Int)
  clock : Int
  attempts : List Attempt

def init (start : Int) : State := ⟨.empty, start, []⟩

inductive Event where
  | allow (subject : Text) (now : Int)
  | refund (i : Nat)

/-- The clock does not go back, and an attempt is given back once. -/
def step (l : SlidingWindowLimiter) (s : State) (e : Event) : Option State :=
  match e with
  | .allow subject now =>
    if now < s.clock then none
    else
      let (allowed, hits) := allow l now s.hits subject
      some {
        hits
        clock := now
        attempts := if allowed then s.attempts ++ [⟨subject, now, false⟩] else s.attempts }
  | .refund i =>
    match s.attempts[i]? with
    | none => none
    | some a =>
      if a.refunded then none
      else
        some { s with
          hits := refund s.hits a.subject
          attempts := s.attempts.set i { a with refunded := true } }

def machine (l : SlidingWindowLimiter) : Machine State Event := ⟨step l⟩

def records (s : State) (subject : Text) : List Int := (s.hits.get? subject).getD []

/-- The times of the attempts of a subject that were allowed and not given back. -/
def unrefunded (attempts : List Attempt) (subject : Text) : List Int :=
  (attempts.filter fun a => a.subject = subject && !a.refunded).map (·.time)

/--
Less than a window apart there are `max` attempts at most, and an attempt is refused only if there are
that many in the window.
-/
structure WindowLaw (l : SlidingWindowLimiter) (s : State) : Prop where
  bounded : ∀ subject start stop, stop - start < l.windowMs →
    (unrefunded s.attempts subject).countP (fun t => start ≤ t && t ≤ stop) ≤ l.max
  fair : ∀ subject now, s.clock ≤ now → (allow l now s.hits subject).1 = false →
    l.max ≤ (unrefunded s.attempts subject).countP fun t => now - t < l.windowMs

/-- There is room for the subject besides the others. -/
def roomy (l : SlidingWindowLimiter) (s : State) (e : Event) : Prop :=
  match e with
  | .allow subject _ => (s.hits.delete subject).size < l.maxKeys
  | .refund _ => True

/-- The record that goes is the one of the attempt that is given back. -/
def ownRecord (s : State) (e : Event) : Prop :=
  match e with
  | .allow _ _ => True
  | .refund i => ∀ a ∈ s.attempts[i]?, ∀ ts ∈ (records s a.subject).getLast?, ts = a.time

instance (l : SlidingWindowLimiter) (s : State) (e : Event) : Decidable (roomy l s e) :=
  match e with
  | .allow subject _ => inferInstanceAs (Decidable ((s.hits.delete subject).size < l.maxKeys))
  | .refund _ => inferInstanceAs (Decidable True)

instance (s : State) (e : Event) : Decidable (ownRecord s e) :=
  match e with
  | .allow _ _ => inferInstanceAs (Decidable True)
  | .refund i =>
    inferInstanceAs (Decidable (∀ a ∈ s.attempts[i]?, ∀ ts ∈ (records s a.subject).getLast?, ts = a.time))

section Steps

variable {l : SlidingWindowLimiter} {s s' : State} {subject : Text}

theorem unrefunded_concat (attempts : List Attempt) (a : Attempt) (subject : Text) :
    unrefunded (attempts ++ [a]) subject =
      unrefunded attempts subject ++ unrefunded [a] subject := by
  simp [unrefunded]

/-- An attempt that is given back counts no longer, and nothing else changes. -/
theorem unrefunded_set {attempts : List Attempt} {i : Nat} {a : Attempt} (hi : attempts[i]? = some a)
    (hopen : a.refunded = false) (subject : Text) :
    (unrefunded attempts subject).Perm
      ((if a.subject = subject then [a.time] else []) ++
        unrefunded (attempts.set i { a with refunded := true }) subject) := by
  rcases List.getElem?_eq_some_iff.mp hi with ⟨hlt, rfl⟩
  rcases @List.exists_of_set _ i { attempts[i] with refunded := true } attempts hlt with
    ⟨before, after, heq, -, hset⟩
  rw [hset]
  generalize attempts[i] = a at heq hopen
  subst heq
  by_cases hsubject : a.subject = subject
  . simp only [unrefunded, List.filter_append, List.filter_cons, hsubject, hopen, if_true,
      List.map_append, List.map_cons, decide_true, Bool.not_false, Bool.and_self, Bool.not_true,
      Bool.and_false, Bool.false_eq_true, if_false, List.singleton_append]
    exact List.perm_middle
  . simp [unrefunded, hsubject]

/-- The records are those of the attempts that count, but for some that are out of the window. -/
structure Kept (l : SlidingWindowLimiter) (s : State) : Prop where
  clock : ∀ a ∈ s.attempts, a.time ≤ s.clock
  records : ∀ subject, ∃ older, (unrefunded s.attempts subject).Perm (older ++ records s subject) ∧
    ∀ ts ∈ older, l.windowMs ≤ s.clock - ts
  bounded : ∀ subject start stop, stop - start < l.windowMs →
    (unrefunded s.attempts subject).countP (fun t => start ≤ t && t ≤ stop) ≤ l.max

theorem kept_init (l : SlidingWindowLimiter) (start : Int) : Kept l (init start) where
  clock _ h := nomatch h
  records _ := ⟨[], .refl _, fun _ h => nomatch h⟩
  bounded _ _ _ _ := Nat.zero_le _

/-- What is in the window are the records that are. -/
theorem Kept.countP_window (h : Kept l s) {now : Int} (hnow : s.clock ≤ now) (subject : Text) :
    (unrefunded s.attempts subject).countP (fun t => now - t < l.windowMs) =
      ((Handshakes.records s subject).filter fun ts => now - ts < l.windowMs).length := by
  rcases h.records subject with ⟨older, hperm, holder⟩
  have hnone : older.countP (fun t => now - t < l.windowMs) = 0 := by
    rw [List.countP_eq_zero]
    intro ts hts
    have := holder ts hts
    simp only [decide_eq_true_eq]
    omega
  rw [hperm.countP_eq, List.countP_append, hnone, Nat.zero_add, List.countP_eq_length_filter]

theorem Kept.windowLaw (h : Kept l s) : WindowLaw l s where
  bounded := h.bounded
  fair subject now hnow hrefused := by
    rw [h.countP_window hnow]
    exact Nat.not_lt.mp (of_decide_eq_false hrefused)

theorem get?_allow (t : Int) (hits : Map Text (List Int)) (subject' : Text)
    (hroom : (hits.delete subject).size < l.maxKeys) :
    (allow l t hits subject).2.get? subject' =
      if subject' = subject then
        some (if (allow l t hits subject).1 = true then
          (((hits.get? subject).getD []).filter fun ts => t - ts < l.windowMs) ++ [t]
        else ((hits.get? subject).getD []).filter fun ts => t - ts < l.windowMs)
      else hits.get? subject' := by
  unfold allow
  dsimp only
  rw [evictOverflow_of_size_le]
  . rw [Map.get?_set, Map.get?_delete]
    split
    . simp only [decide_eq_true_eq]
    . rfl
  . rw [size_touch]
    exact Nat.le_trans hroom (Nat.le_max_right 1 _)

/-- What is filtered out is out of the window, then and later. -/
theorem Kept.recent (h : Kept l s) {now : Int} (hnow : s.clock ≤ now) (subject : Text) :
    ∃ older, (unrefunded s.attempts subject).Perm
        (older ++ (Handshakes.records s subject).filter fun ts => now - ts < l.windowMs) ∧
      ∀ ts ∈ older, l.windowMs ≤ now - ts := by
  rcases h.records subject with ⟨older, hperm, holder⟩
  refine ⟨older ++ (Handshakes.records s subject).filter fun ts => !decide (now - ts < l.windowMs), ?_, ?_⟩
  . rw [List.append_assoc]
    refine hperm.trans (List.Perm.append_left older ?_)
    exact (List.filter_append_perm _ _).symm.trans List.perm_append_comm
  . intro ts hts
    rcases List.mem_append.mp hts with hts | hts
    . have := holder ts hts
      omega
    . have := (List.mem_filter.mp hts).2
      simp only [Bool.not_eq_true', decide_eq_false_iff_not] at this
      omega

theorem Kept.allow (h : Kept l s) {now : Int} (hnow : s.clock ≤ now)
    (hroom : (s.hits.delete subject).size < l.maxKeys) :
    Kept l {
      hits := (allow l now s.hits subject).2
      clock := now
      attempts := if (Handshakes.allow l now s.hits subject).1 then s.attempts ++ [⟨subject, now, false⟩]
        else s.attempts } := by
  have hrecords (subject' : Text) := get?_allow now s.hits subject' hroom
  have hallowed : (Handshakes.allow l now s.hits subject).1 = true →
      ((Handshakes.records s subject).filter fun ts => now - ts < l.windowMs).length < l.max :=
    fun htrue => of_decide_eq_true htrue
  cases hcase : (Handshakes.allow l now s.hits subject).1 with
  | false =>
    simp only [hcase, Bool.false_eq_true, if_false] at hrecords ⊢
    constructor
    . intro a ha
      exact Int.le_trans (h.clock a ha) hnow
    . intro subject'
      rw [Handshakes.records, hrecords]
      split
      . next heq =>
        rw [heq]
        exact h.recent hnow subject
      . rcases h.records subject' with ⟨older, hperm, holder⟩
        refine ⟨older, hperm, fun ts hts => ?_⟩
        have := holder ts hts
        dsimp only
        omega
    . exact h.bounded
  | true =>
    simp only [hcase, if_true] at hrecords ⊢
    have hadded : unrefunded [⟨subject, now, false⟩] subject = [now] := by simp [unrefunded]
    have hothers {subject' : Text} (hne : subject' ≠ subject) :
        unrefunded [⟨subject, now, false⟩] subject' = [] := by
      simp [unrefunded, Ne.symm hne]
    constructor
    . intro a ha
      rcases List.mem_append.mp ha with ha | ha
      . exact Int.le_trans (h.clock a ha) hnow
      . exact Int.le_of_eq (congrArg (·.time) (List.mem_singleton.mp ha))
    . intro subject'
      rw [Handshakes.records, hrecords, unrefunded_concat]
      split
      . next heq =>
        rw [heq, hadded]
        rcases h.recent hnow subject with ⟨older, hperm, holder⟩
        refine ⟨older, ?_, holder⟩
        rw [Option.getD_some, ← List.append_assoc]
        exact hperm.append_right _
      . next hne =>
        rw [hothers hne, List.append_nil]
        rcases h.records subject' with ⟨older, hperm, holder⟩
        refine ⟨older, hperm, fun ts hts => ?_⟩
        have := holder ts hts
        dsimp only
        omega
    . intro subject' start stop hlt
      rw [unrefunded_concat, List.countP_append]
      have hbounded := h.bounded subject' start stop hlt
      by_cases heq : subject' = subject
      . subst heq
        rw [hadded, List.countP_singleton]
        split
        . next hinside =>
          -- the interval ends with the new attempt, so that it lies in the window
          simp only [Bool.and_eq_true, decide_eq_true_eq] at hinside
          have hwindow := h.countP_window hnow subject'
          have hmono : (unrefunded s.attempts subject').countP (fun t => start ≤ t && t ≤ stop) ≤
              (unrefunded s.attempts subject').countP fun t => now - t < l.windowMs := by
            apply List.countP_mono_left
            intro t _ ht
            simp only [Bool.and_eq_true, decide_eq_true_eq] at ht ⊢
            omega
          have := hallowed hcase
          omega
        . exact hbounded
      . rw [hothers heq]
        exact hbounded

theorem get?_refund (hits : Map Text (List Int)) (subject subject' : Text) :
    ((refund hits subject).get? subject').getD [] =
      if subject' = subject then ((hits.get? subject).getD []).dropLast
      else (hits.get? subject').getD [] := by
  unfold refund
  split
  . next hnone =>
    split
    . next heq => simp [heq, hnone]
    . rfl
  . next recent hsome =>
    split
    . next hempty =>
      rw [List.isEmpty_iff] at hempty
      split
      . next heq => simp [heq, hsome, hempty]
      . rfl
    . rw [Map.get?_set]
      split
      . simp [hsome]
      . rfl

theorem Kept.refund (h : Kept l s) {i : Nat} {a : Attempt} (hi : s.attempts[i]? = some a)
    (hopen : a.refunded = false) (hown : ∀ ts ∈ (Handshakes.records s a.subject).getLast?, ts = a.time) :
    Kept l { s with
      hits := refund s.hits a.subject
      attempts := s.attempts.set i { a with refunded := true } } := by
  have hset (subject : Text) := unrefunded_set hi hopen subject
  constructor
  . intro b hb
    rcases List.mem_or_eq_of_mem_set hb with hb | rfl
    . exact h.clock b hb
    . exact h.clock a (List.mem_of_getElem? hi)
  . intro subject
    rcases h.records subject with ⟨older, hperm, holder⟩
    have hrest := (hset subject).symm.trans hperm
    rw [Handshakes.records, get?_refund]
    by_cases heq : a.subject = subject
    . subst heq
      rw [if_pos rfl]
      rw [if_pos rfl, List.singleton_append] at hrest
      cases hlast : (Handshakes.records s a.subject).getLast? with
      | none =>
        -- its record has gone with the window, and so have all others
        rw [List.getLast?_eq_none_iff] at hlast
        rw [hlast, List.append_nil] at hrest
        refine ⟨unrefunded (s.attempts.set i { a with refunded := true }) a.subject, ?_, ?_⟩
        . rw [show (s.hits.get? a.subject).getD [] = [] from hlast, List.dropLast_nil, List.append_nil]
        . intro ts hts
          exact holder ts (hrest.subset (.tail _ hts))
      | some ts =>
        have htime : ts = a.time := hown ts hlast
        refine ⟨older, ?_, holder⟩
        have hsplit := List.dropLast_append_getLast? ts hlast
        rw [← hsplit, htime, ← List.append_assoc] at hrest
        exact (hrest.trans (List.perm_append_singleton _ _)).cons_inv
    . rw [if_neg heq, List.nil_append] at hrest
      rw [if_neg (Ne.symm heq)]
      exact ⟨older, hrest, holder⟩
  . intro subject start stop hlt
    refine Nat.le_trans ?_ (h.bounded subject start stop hlt)
    rw [(hset subject).countP_eq, List.countP_append]
    exact Nat.le_add_left _ _

theorem Kept.step {e : Event} (h : Kept l s) (hok : roomy l s e ∧ ownRecord s e)
    (hstep : step l s e = some s') : Kept l s' := by
  cases e with
  | allow subject now =>
    simp only [Handshakes.step] at hstep
    split at hstep
    . contradiction
    . next hnow =>
      rw [Option.some.injEq] at hstep
      exact hstep ▸ h.allow (Int.not_lt.mp hnow) hok.1
  | refund i =>
    simp only [Handshakes.step] at hstep
    split at hstep
    . contradiction
    . next a hi =>
      split at hstep
      . contradiction
      . next hopen =>
        rw [Option.some.injEq] at hstep
        exact hstep ▸ h.refund hi (by simpa using hopen) (hok.2 a hi)

end Steps

section Claim

/--
The law holds in every run in which there is room for the subjects and every refund takes the record of
the attempt that it gives back.
-/
theorem windowLaw_of_ownRecord {l : SlidingWindowLimiter} {start : Int} {s : State}
    (h : (machine l).Reach (fun s e => roomy l s e ∧ ownRecord s e) (init start) s) : WindowLaw l s :=
  (h.invariant (kept_init l start) fun _ _ _ hs hok hstep => hs.step hok hstep).windowLaw

def sampleLimiter : SlidingWindowLimiter := ⟨2, 60, 5⟩

/-- The second of two attempts turns out to be authentic; of the next two one is refused. -/
theorem windowLaw_sampleLimiter : ∃ s,
    (machine sampleLimiter).Reach (fun s e => roomy sampleLimiter s e ∧ ownRecord s e) (init 0) s ∧
      unrefunded s.attempts ['a'] = [0, 20] ∧ WindowLaw sampleLimiter s := by
  have hexec : ((machine sampleLimiter).exec (fun s e => roomy sampleLimiter s e ∧ ownRecord s e) (init 0)
      [.allow ['a'] 0, .allow ['a'] 10, .refund 1, .allow ['a'] 20, .allow ['a'] 30]).map
        (fun s => unrefunded s.attempts ['a']) = some [0, 20] := by decide +kernel
  rcases Machine.reach_of_exec_map hexec with ⟨s, hreach, htimes⟩
  exact ⟨s, hreach, htimes, windowLaw_of_ownRecord hreach⟩

/-- An attempt that has left the window takes the record of the next one when it is given back. -/
theorem late_refund_overflows :
    ¬∀ (l : SlidingWindowLimiter) (start : Int) (s : State),
      (machine l).Reach (roomy l) (init start) s → WindowLaw l s := by
  intro h
  have hexec : ((machine ⟨1, 60, 5⟩).exec (roomy ⟨1, 60, 5⟩) (init 0)
      [.allow ['a'] 0, .allow ['a'] 60, .refund 0, .allow ['a'] 61]).map
        (fun s => unrefunded s.attempts ['a']) = some [60, 61] := by decide +kernel
  rcases Machine.reach_of_exec_map hexec with ⟨s, hreach, htimes⟩
  have hbounded := (h _ 0 s hreach).bounded ['a'] 60 61 (by decide)
  rw [htimes] at hbounded
  revert hbounded
  decide

end Claim

end Handshakes

end OpenWA.Events
