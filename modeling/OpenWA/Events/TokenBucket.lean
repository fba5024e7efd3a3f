import OpenWA.Events.SlidingWindow
import OpenWA.Js.Double
import Mathlib.Data.Finset.Card
import Mathlib.Data.List.Chain
import Mathlib.Tactic.FieldSimp

/-!
This module contains the token buckets that bound the frames of a subject: how they fill with the
clock, how many frames pass in a stretch of calls, and that subjects do not share them.
-/

namespace OpenWA.Events.Frames

open Js

/-! ### The configuration -/

def parsePositiveInt (raw : Option Text) (fallback : Nat) : Nat :=
  match raw with
  | none => fallback
  | some raw =>
    if (trim raw).isEmpty then fallback
    else
      match stringToNumber raw with
      | .finite n => if 1 ≤ ⌊n⌋ then ⌊n⌋.toNat else fallback
      | _ => fallback

theorem parsePositiveInt_pos (raw : Option Text) {fallback : Nat} (h : 1 ≤ fallback) :
    1 ≤ parsePositiveInt raw fallback := by
  unfold parsePositiveInt
  repeat' split
  . exact h
  . exact h
  . omega
  . exact h
  . exact h

structure TokenBucketLimiter where
  refillPerSecond : Rat
  capacity : Rat
  maxKeys : Nat
  refill_pos : 0 < refillPerSecond
  one_le_capacity : 1 ≤ capacity

/-- The limiter of the gateway, for the values of the two variables. -/
def frameLimiter (framePerSecond frameBurst : Option Text) : TokenBucketLimiter where
  refillPerSecond := parsePositiveInt framePerSecond 60
  capacity := parsePositiveInt frameBurst 120
  maxKeys := 50000
  refill_pos := Nat.cast_pos.mpr (parsePositiveInt_pos _ (by decide))
  one_le_capacity := Nat.one_le_cast.mpr (parsePositiveInt_pos _ (by decide))

/-! ### The buckets -/

structure Bucket where
  tokens : Rat
  lastRefill : Rat
deriving DecidableEq

/-- The bucket of a call: a full one, or the one there is, with what it gained. -/
def refill (l : TokenBucketLimiter) (t : Rat) (bucket : Option Bucket) : Bucket :=
  match bucket with
  | none => ⟨l.capacity, t⟩
  | some bucket =>
    if t > bucket.lastRefill then
      ⟨min l.capacity (bucket.tokens + (t - bucket.lastRefill) * l.refillPerSecond / 1000), t⟩
    else bucket

/-- Whether there is a token, and the bucket without it. -/
def consume (bucket : Bucket) : Bool × Bucket :=
  if 1 ≤ bucket.tokens then (true, { bucket with tokens := bucket.tokens - 1 }) else (false, bucket)

def allow (l : TokenBucketLimiter) (t : Rat) (buckets : Map Text Bucket) (subject : Text) :
    Bool × Map Text Bucket :=
  let (allowed, bucket) := consume (refill l t (buckets.get? subject))
  (allowed, evictOverflow ((buckets.delete subject).set subject bucket) l.maxKeys)

structure Call where
  subject : Text
  now : Rat
deriving DecidableEq

/-- The buckets after the calls. -/
def replay (l : TokenBucketLimiter) (buckets : Map Text Bucket) (calls : List Call) : Map Text Bucket :=
  calls.foldl (fun buckets call => (allow l call.now buckets call.subject).2) buckets

/-- The calls with their answers. -/
def answers (l : TokenBucketLimiter) (buckets : Map Text Bucket) (calls : List Call) :
    List (Call × Bool) :=
  match calls with
  | [] => []
  | call :: calls =>
    (call, (allow l call.now buckets call.subject).1) ::
      answers l (allow l call.now buckets call.subject).2 calls

def ofSubject (subject : Text) (calls : List Call) : List Call := calls.filter (·.subject = subject)

/-- The answers to the calls of a subject. -/
def answersTo (subject : Text) (answers : List (Call × Bool)) : List (Call × Bool) :=
  answers.filter (·.1.subject = subject)

/-- The number of frames that pass. -/
def passed (answers : List (Call × Bool)) : Nat := answers.countP (·.2)

def runningMax (readings : List Rat) : Rat :=
  match readings with
  | [] => 0
  | t :: readings => readings.foldl max t

def readings (calls : List Call) : List Rat := calls.map (·.now)

def subjects (calls : List Call) : Finset Text := (calls.map (·.subject)).toFinset

/-! ### One bucket -/

section Single

variable {l : TokenBucketLimiter}

def bucketStep (l : TokenBucketLimiter) (t : Rat) (bucket : Option Bucket) : Bool × Bucket :=
  consume (refill l t bucket)

def bucketAfter (l : TokenBucketLimiter) (bucket : Option Bucket) (calls : List Call) : Option Bucket :=
  calls.foldl (fun bucket call => some (bucketStep l call.now bucket).2) bucket

def bucketAnswers (l : TokenBucketLimiter) (bucket : Option Bucket) (calls : List Call) :
    List (Call × Bool) :=
  match calls with
  | [] => []
  | call :: calls =>
    (call, (bucketStep l call.now bucket).1) ::
      bucketAnswers l (some (bucketStep l call.now bucket).2) calls

/-- What a call takes is not in the bucket any more, and the bucket holds no debt. -/
theorem consume_cases (bucket : Bucket) :
    ((consume bucket).1.toNat : Rat) + (consume bucket).2.tokens = bucket.tokens ∧
      (consume bucket).2.lastRefill = bucket.lastRefill ∧
      (0 ≤ bucket.tokens → 0 ≤ (consume bucket).2.tokens) ∧
      ((consume bucket).1 = true ↔ 1 ≤ bucket.tokens) := by
  unfold consume
  split
  . next h => exact ⟨by simp, rfl, fun _ => by simpa using h, by simpa using h⟩
  . next h => exact ⟨by simp, rfl, id, by simpa using h⟩

theorem refill_none (t : Rat) : refill l t none = ⟨l.capacity, t⟩ := rfl

theorem refill_some (t : Rat) (bucket : Bucket) :
    (refill l t (some bucket)).lastRefill = max bucket.lastRefill t ∧
      (refill l t (some bucket)).tokens ≤
        bucket.tokens + (max bucket.lastRefill t - bucket.lastRefill) * (l.refillPerSecond / 1000) ∧
      (bucket.tokens ≤ l.capacity → (refill l t (some bucket)).tokens ≤ l.capacity) ∧
      (0 ≤ bucket.tokens → 0 ≤ (refill l t (some bucket)).tokens) := by
  have hrate : 0 < l.refillPerSecond := l.refill_pos
  have hcapacity : 1 ≤ l.capacity := l.one_le_capacity
  simp only [refill]
  split
  . next h =>
    have hmax : max bucket.lastRefill t = t := max_eq_right (le_of_lt h)
    have hgain : 0 ≤ (t - bucket.lastRefill) * l.refillPerSecond / 1000 :=
      div_nonneg (mul_nonneg (sub_nonneg.mpr (le_of_lt h)) (le_of_lt hrate)) (by norm_num)
    refine ⟨hmax.symm, ?_, fun _ => min_le_left _ _, fun h0 => ?_⟩
    . rw [hmax, ← mul_div_assoc]
      exact min_le_right _ _
    . exact le_min (by linarith) (by linarith)
  . next h =>
    have hmax : max bucket.lastRefill t = bucket.lastRefill := max_eq_left (not_lt.mp h)
    refine ⟨hmax.symm, ?_, id, id⟩
    rw [hmax]
    simp

/-- A bucket holds no debt and no more than its capacity. -/
def InBounds (l : TokenBucketLimiter) (bucket : Bucket) : Prop :=
  0 ≤ bucket.tokens ∧ bucket.tokens ≤ l.capacity

theorem inBounds_bucketStep {bucket : Option Bucket} (h : ∀ b ∈ bucket, InBounds l b) (t : Rat) :
    InBounds l (bucketStep l t bucket).2 ∧
      ((bucketStep l t bucket).1.toNat : Rat) + (bucketStep l t bucket).2.tokens ≤ l.capacity := by
  have hcapacity : 1 ≤ l.capacity := l.one_le_capacity
  have hrefill : InBounds l (refill l t bucket) := by
    cases bucket with
    | none => exact ⟨by rw [refill_none]; linarith, le_refl _⟩
    | some b =>
      rcases refill_some (l := l) t b with ⟨-, -, hle, hnonneg⟩
      exact ⟨hnonneg (h b rfl).1, hle (h b rfl).2⟩
  rcases consume_cases (refill l t bucket) with ⟨hsum, -, hnonneg, -⟩
  have hcount : (0 : Rat) ≤ ((consume (refill l t bucket)).1.toNat : Rat) := Nat.cast_nonneg _
  have hle := hrefill.2
  refine ⟨⟨hnonneg hrefill.1, ?_⟩, ?_⟩
  . unfold bucketStep
    linarith
  . unfold bucketStep
    linarith

theorem lastRefill_bucketStep (t : Rat) (bucket : Option Bucket) :
    (bucketStep l t bucket).2.lastRefill = bucket.elim t fun b => max b.lastRefill t := by
  rw [bucketStep, (consume_cases _).2.1]
  cases bucket with
  | none => rfl
  | some b => exact (refill_some t b).1

theorem bucketAfter_concat (bucket : Option Bucket) (calls : List Call) (call : Call) :
    bucketAfter l bucket (calls ++ [call]) =
      some (bucketStep l call.now (bucketAfter l bucket calls)).2 := by
  rw [bucketAfter, List.foldl_append]
  rfl

theorem runningMax_concat {ts : List Rat} (h : ts ≠ []) (t : Rat) :
    runningMax (ts ++ [t]) = max (runningMax ts) t := by
  cases ts with
  | nil => contradiction
  | cons t' ts => simp [runningMax, List.foldl_append]

/-- The bucket was filled last at the latest reading so far. -/
theorem bucketAfter_none (calls : List Call) :
    (calls = [] ∧ bucketAfter l none calls = none) ∨
      ∃ b, bucketAfter l none calls = some b ∧ InBounds l b ∧
        b.lastRefill = runningMax (readings calls) := by
  induction calls using List.reverseRecOn with
  | nil => exact .inl ⟨rfl, rfl⟩
  | append_singleton calls call ih =>
    right
    refine ⟨_, bucketAfter_concat none calls call, ?_, ?_⟩
    . refine (inBounds_bucketStep ?_ call.now).1
      rcases ih with ⟨-, hnone⟩ | ⟨b, hsome, hb, -⟩
      . rw [hnone]
        intro b hb
        contradiction
      . rw [hsome]
        rintro _ ⟨⟩
        exact hb
    . rw [lastRefill_bucketStep]
      rcases ih with ⟨rfl, hnone⟩ | ⟨b, hsome, -, hlast⟩
      . rw [hnone]
        rfl
      . rw [hsome]
        cases calls with
        | nil => contradiction
        | cons call' calls =>
          rw [readings, List.map_append, List.map_singleton, runningMax_concat (by simp), ← readings,
            ← hlast]
          rfl

/-- What passes comes out of the bucket or was gained since. -/
theorem passed_bucketAnswers {b : Bucket} (h : 0 ≤ b.tokens) (calls : List Call) :
    ∃ b', bucketAfter l (some b) calls = some b' ∧ 0 ≤ b'.tokens ∧
      (passed (bucketAnswers l (some b) calls) : Rat) + b'.tokens ≤
        b.tokens + (b'.lastRefill - b.lastRefill) * (l.refillPerSecond / 1000) := by
  induction calls generalizing b with
  | nil => exact ⟨b, rfl, h, by simp [bucketAnswers, passed]⟩
  | cons call calls ih =>
    rcases refill_some (l := l) call.now b with ⟨hlast, hgain, -, hnonneg⟩
    rcases consume_cases (refill l call.now (some b)) with ⟨hsum, hkept, hleft, -⟩
    rcases ih (hleft (hnonneg h)) with ⟨b', hafter, hb', hpassed⟩
    refine ⟨b', hafter, hb', ?_⟩
    have hcount : (passed (bucketAnswers l (some b) (call :: calls)) : Rat) =
        ((consume (refill l call.now (some b))).1.toNat : Rat) +
          passed (bucketAnswers l (some (consume (refill l call.now (some b))).2) calls) := by
      simp only [bucketAnswers, passed, List.countP_cons, bucketStep]
      cases (consume (refill l call.now (some b))).1 with
      | false => simp
      | true => simp [add_comm]
    rw [hcount]
    rw [hkept, hlast] at hpassed
    have hsplit : (b'.lastRefill - b.lastRefill) * (l.refillPerSecond / 1000) =
        (b'.lastRefill - max b.lastRefill call.now) * (l.refillPerSecond / 1000) +
          (max b.lastRefill call.now - b.lastRefill) * (l.refillPerSecond / 1000) := by ring
    linarith

/-- A stretch passes what the bucket can hold and what it gains after the first call. -/
theorem passed_stretch_le (before rest : List Call) (first : Call) :
    (passed (bucketAnswers l (bucketAfter l none before) (first :: rest)) : Rat) ≤
      l.capacity + (runningMax (readings (before ++ first :: rest)) -
        runningMax (readings (before ++ [first]))) * (l.refillPerSecond / 1000) := by
  have hbounds : ∀ b ∈ bucketAfter l none before, InBounds l b := by
    rcases bucketAfter_none (l := l) before with ⟨-, hnone⟩ | ⟨b, hsome, hb, -⟩
    . rw [hnone]
      intro b hb
      contradiction
    . rw [hsome]
      rintro _ ⟨⟩
      exact hb
  rcases inBounds_bucketStep hbounds first.now with ⟨hstep, hfirst⟩
  rcases passed_bucketAnswers (l := l) hstep.1 rest with ⟨b', hafter, hb', hpassed⟩
  have hstart := bucketAfter_concat (l := l) none before first
  have hend : bucketAfter l none (before ++ first :: rest) = some b' := by
    rw [bucketAfter, List.foldl_append]
    exact hafter
  have hlast {calls : List Call} {b : Bucket} (h : bucketAfter l none calls = some b) :
      b.lastRefill = runningMax (readings calls) := by
    rcases bucketAfter_none (l := l) calls with ⟨-, hnone⟩ | ⟨b₀, hsome, -, hb₀⟩
    . rw [hnone] at h
      contradiction
    . rw [hsome, Option.some.injEq] at h
      exact h ▸ hb₀
  rw [hlast hstart, hlast hend] at hpassed
  have hcount : (passed (bucketAnswers l (bucketAfter l none before) (first :: rest)) : Rat) =
      ((bucketStep l first.now (bucketAfter l none before)).1.toNat : Rat) +
        passed (bucketAnswers l (some (bucketStep l first.now (bucketAfter l none before)).2) rest) := by
    simp only [bucketAnswers, passed, List.countP_cons]
    cases (bucketStep l first.now (bucketAfter l none before)).1 with
    | false => simp
    | true => simp [add_comm]
  rw [hcount]
  linarith

/-- Calls that leave the bucket time for a token all pass. -/
theorem bucketAnswers_spaced {b : Bucket} {previous : Call} {calls : List Call} (h : 0 ≤ b.tokens)
    (hlast : b.lastRefill = previous.now)
    (hspaced : (previous :: calls).IsChain fun c c' => c.now + 1000 / l.refillPerSecond ≤ c'.now) :
    ∀ answer ∈ bucketAnswers l (some b) calls, answer.2 = true := by
  induction calls generalizing b previous with
  | nil =>
    intro answer hanswer
    contradiction
  | cons call calls ih =>
    rw [List.isChain_cons_cons] at hspaced
    have hrate : 0 < l.refillPerSecond := l.refill_pos
    have hgap : 0 < 1000 / l.refillPerSecond := div_pos (by norm_num) hrate
    have hlater : call.now > b.lastRefill := by
      rw [hlast]
      linarith [hspaced.1]
    have hgain : 1 ≤ (call.now - b.lastRefill) * l.refillPerSecond / 1000 := by
      have hge : 1000 / l.refillPerSecond ≤ call.now - b.lastRefill := by
        rw [hlast]
        linarith [hspaced.1]
      rw [div_le_iff₀ hrate] at hge
      linarith
    have htoken : 1 ≤ (refill l call.now (some b)).tokens := by
      simp only [refill, if_pos hlater]
      exact le_min l.one_le_capacity (by linarith)
    rcases consume_cases (refill l call.now (some b)) with ⟨-, hkept, hleft, hpass⟩
    have hstep : (bucketStep l call.now (some b)).2.lastRefill = call.now := by
      rw [lastRefill_bucketStep]
      exact max_eq_right (le_of_lt hlater)
    intro answer hanswer
    rcases List.mem_cons.mp hanswer with rfl | hanswer
    . exact hpass.mpr htoken
    . exact ih (hleft (by linarith)) hstep hspaced.2 answer hanswer

theorem bucketAnswers_spaced_none {calls : List Call}
    (hspaced : calls.IsChain fun c c' => c.now + 1000 / l.refillPerSecond ≤ c'.now) :
    ∀ answer ∈ bucketAnswers l none calls, answer.2 = true := by
  cases calls with
  | nil =>
    intro answer hanswer
    contradiction
  | cons call calls =>
    rcases consume_cases (refill l call.now none) with ⟨-, -, hleft, hpass⟩
    have hcapacity : 1 ≤ l.capacity := l.one_le_capacity
    intro answer hanswer
    rcases List.mem_cons.mp hanswer with rfl | hanswer
    . exact hpass.mpr hcapacity
    . refine bucketAnswers_spaced (hleft ?_) (lastRefill_bucketStep call.now none) hspaced answer hanswer
      rw [refill_none]
      linarith

end Single

/-! ### The buckets of all subjects -/

section Subjects

variable {l : TokenBucketLimiter} {buckets : Map Text Bucket}

theorem allow_fst (t : Rat) (subject : Text) :
    (allow l t buckets subject).1 = (bucketStep l t (buckets.get? subject)).1 := rfl

theorem get?_allow {subject : Text} (hroom : (buckets.delete subject).size < l.maxKeys) (t : Rat)
    (subject' : Text) : (allow l t buckets subject).2.get? subject' =
      if subject' = subject then some (bucketStep l t (buckets.get? subject)).2
      else buckets.get? subject' := by
  unfold allow
  dsimp only
  rw [evictOverflow_of_size_le]
  . rw [Map.get?_set, Map.get?_delete]
    split
    . rfl
    . rfl
  . rw [size_touch]
    exact Nat.le_trans hroom (Nat.le_max_right 1 _)

/-- The subjects that have a bucket and those that will call fit together. -/
def HasRoom (l : TokenBucketLimiter) (buckets : Map Text Bucket) (calls : List Call) : Prop :=
  (buckets.keys.toFinset ∪ subjects calls).card ≤ l.maxKeys

theorem HasRoom.head {call : Call} {calls : List Call} (h : HasRoom l buckets (call :: calls)) :
    (buckets.delete call.subject).size < l.maxKeys := by
  have hkeys : (buckets.delete call.subject).keys.Nodup := (buckets.delete call.subject).nodup
  have hnot : call.subject ∉ (buckets.delete call.subject).keys.toFinset := by
    rw [List.mem_toFinset, ← Map.get?_isSome_iff, Map.get?_delete, if_pos rfl]
    simp
  have hcard : (insert call.subject (buckets.delete call.subject).keys.toFinset).card =
      (buckets.delete call.subject).size + 1 := by
    rw [Finset.card_insert_of_notMem hnot, List.toFinset_card_of_nodup hkeys]
    simp [Map.keys, Map.size]
  have hsubset : insert call.subject (buckets.delete call.subject).keys.toFinset ⊆
      buckets.keys.toFinset ∪ subjects (call :: calls) := by
    intro k hk
    rw [Finset.mem_insert] at hk
    rcases hk with rfl | hk
    . simp [subjects]
    . rw [List.mem_toFinset, ← Map.get?_isSome_iff, Map.get?_delete] at hk
      split at hk
      . contradiction
      . rw [Finset.mem_union, List.mem_toFinset]
        exact .inl ((Map.get?_isSome_iff _ _).mp hk)
  have hle := Finset.card_le_card hsubset
  unfold HasRoom at h
  omega

theorem HasRoom.tail {call : Call} {calls : List Call} (h : HasRoom l buckets (call :: calls)) :
    HasRoom l (allow l call.now buckets call.subject).2 calls := by
  refine Nat.le_trans (Finset.card_le_card ?_) h
  intro k hk
  rw [Finset.mem_union, List.mem_toFinset, ← Map.get?_isSome_iff, get?_allow h.head] at hk
  rw [Finset.mem_union, List.mem_toFinset, ← Map.get?_isSome_iff]
  rcases hk with hk | hk
  . split at hk
    . next heq => exact .inr (by simp [subjects, heq])
    . exact .inl hk
  . refine .inr ?_
    simp only [subjects, List.map_cons, List.toFinset_cons, Finset.mem_insert] at hk ⊢
    exact .inr hk

/-- A subject has the bucket and the answers of its own calls. -/
theorem answersTo_answers {calls : List Call} (h : HasRoom l buckets calls) (subject : Text) :
    answersTo subject (answers l buckets calls) =
        bucketAnswers l (buckets.get? subject) (ofSubject subject calls) ∧
      (replay l buckets calls).get? subject =
        bucketAfter l (buckets.get? subject) (ofSubject subject calls) := by
  induction calls generalizing buckets with
  | nil => exact ⟨rfl, rfl⟩
  | cons call calls ih =>
    have hrest := ih h.tail
    rw [get?_allow h.head] at hrest
    have hreplay : replay l buckets (call :: calls) =
        replay l (allow l call.now buckets call.subject).2 calls := rfl
    by_cases hsubject : call.subject = subject
    . subst hsubject
      have hown : ofSubject call.subject (call :: calls) = call :: ofSubject call.subject calls :=
        List.filter_cons_of_pos (by simp)
      rw [if_pos rfl] at hrest
      rw [hown, hreplay]
      refine ⟨?_, hrest.2⟩
      rw [answers, answersTo, List.filter_cons_of_pos (by simp), allow_fst]
      exact congrArg (_ :: ·) hrest.1
    . have hother : ofSubject subject (call :: calls) = ofSubject subject calls :=
        List.filter_cons_of_neg (by simpa using hsubject)
      rw [if_neg (Ne.symm hsubject)] at hrest
      rw [hother, hreplay]
      refine ⟨?_, hrest.2⟩
      rw [answers, answersTo, List.filter_cons_of_neg (by simpa using hsubject)]
      exact hrest.1

theorem hasRoom_of_subjects {calls : List Call} (h : (subjects calls).card < l.maxKeys) :
    HasRoom l .empty calls := by
  unfold HasRoom
  have hnone : (Map.empty : Map Text Bucket).keys.toFinset = ∅ := rfl
  rw [hnone, Finset.empty_union]
  exact Nat.le_of_lt h

theorem subjects_filter_subset (p : Call → Bool) (calls : List Call) :
    subjects (calls.filter p) ⊆ subjects calls := by
  intro k hk
  simp only [subjects, List.mem_toFinset, List.mem_map, List.mem_filter] at hk ⊢
  rcases hk with ⟨call, ⟨hmem, -⟩, rfl⟩
  exact ⟨call, hmem, rfl⟩

theorem HasRoom.replay {before after : List Call} (h : HasRoom l buckets (before ++ after)) :
    HasRoom l (replay l buckets before) after := by
  induction before generalizing buckets with
  | nil => exact h
  | cons call before ih => exact ih h.tail

theorem HasRoom.left {before after : List Call} (h : HasRoom l buckets (before ++ after)) :
    HasRoom l buckets before := by
  refine Nat.le_trans (Finset.card_le_card (Finset.union_subset_union_right ?_)) h
  intro k hk
  simp only [subjects, List.mem_toFinset, List.mem_map, List.mem_append] at hk ⊢
  rcases hk with ⟨call, hmem, rfl⟩
  exact ⟨call, .inl hmem, rfl⟩

theorem map_fst_answers (buckets : Map Text Bucket) (calls : List Call) :
    (answers l buckets calls).map (·.1) = calls := by
  induction calls generalizing buckets with
  | nil => rfl
  | cons call calls ih => exact congrArg (call :: ·) (ih _)

theorem answersTo_of_forall {subject : Text} {calls : List Call} (h : ∀ c ∈ calls, c.subject = subject) :
    answersTo subject (answers l buckets calls) = answers l buckets calls := by
  apply List.filter_eq_self.mpr
  intro answer hanswer
  have hmem : answer.1 ∈ calls := by
    rw [← map_fst_answers (l := l) buckets calls]
    exact List.mem_map_of_mem hanswer
  exact decide_eq_true (h _ hmem)

end Subjects

section Claim

/-- At least the time of one token lies between two calls. -/
def Spaced (l : TokenBucketLimiter) (calls : List Call) : Prop :=
  calls.IsChain fun c c' => c.now + 1000 / l.refillPerSecond ≤ c'.now

/--
A stretch passes the capacity and what the running maximum of the subject's own readings gains since its
first call in it; calls that are spaced all pass; and the calls of others make no difference.
-/
theorem frames_of_subject (l : TokenBucketLimiter) (calls : List Call)
    (h : (subjects calls).card < l.maxKeys) (subject : Text) :
    (∀ before first rest after, calls = before ++ first :: rest ++ after → first.subject = subject →
      (passed (answersTo subject (answers l (replay l .empty before) (first :: rest))) : Rat) ≤
        l.capacity + (runningMax (readings (ofSubject subject (before ++ first :: rest))) -
          runningMax (readings (ofSubject subject (before ++ [first])))) *
            (l.refillPerSecond / 1000)) ∧
    (Spaced l (ofSubject subject calls) →
      ∀ answer ∈ answersTo subject (answers l .empty calls), answer.2 = true) ∧
    answersTo subject (answers l .empty calls) = answers l .empty (ofSubject subject calls) := by
  have hanswers := (answersTo_answers (hasRoom_of_subjects h) subject).1
  rw [Map.get?_empty] at hanswers
  refine ⟨?_, ?_, ?_⟩
  . rintro before first rest after rfl rfl
    have hroom := (hasRoom_of_subjects h).left
    have hstretch := (answersTo_answers hroom.replay first.subject).1
    rw [(answersTo_answers hroom.left first.subject).2, Map.get?_empty] at hstretch
    have hown (rest : List Call) :
        ofSubject first.subject (first :: rest) = first :: ofSubject first.subject rest :=
      List.filter_cons_of_pos (by simp)
    have happend (rest : List Call) : ofSubject first.subject (before ++ first :: rest) =
        ofSubject first.subject before ++ first :: ofSubject first.subject rest := by
      rw [← hown]
      exact List.filter_append _ _
    rw [hstretch, hown, happend, happend]
    exact passed_stretch_le _ _ first
  . intro hspaced answer hanswer
    rw [hanswers] at hanswer
    exact bucketAnswers_spaced_none hspaced answer hanswer
  . have hfew : (subjects (ofSubject subject calls)).card < l.maxKeys :=
      Nat.lt_of_le_of_lt (Finset.card_le_card (subjects_filter_subset _ calls)) h
    have hown := (answersTo_answers (hasRoom_of_subjects hfew) subject).1
    have hall : ∀ c ∈ ofSubject subject calls, c.subject = subject := by
      intro c hc
      exact of_decide_eq_true (List.mem_filter.mp hc).2
    have htwice : ofSubject subject (ofSubject subject calls) = ofSubject subject calls :=
      List.filter_eq_self.mpr fun c hc => decide_eq_true (hall c hc)
    rw [answersTo_of_forall hall, htwice, Map.get?_empty] at hown
    rw [hanswers, hown]

def slowLimiter : TokenBucketLimiter where
  refillPerSecond := 1
  capacity := 1
  maxKeys := 3
  refill_pos := by norm_num
  one_le_capacity := le_refl 1

theorem frames_of_subject_slowLimiter :
    (Spaced slowLimiter (ofSubject ['a'] [⟨['a'], 0⟩, ⟨['b'], 5⟩, ⟨['a'], 1000⟩]) →
      ∀ answer ∈ answersTo ['a'] (answers slowLimiter .empty [⟨['a'], 0⟩, ⟨['b'], 5⟩, ⟨['a'], 1000⟩]),
        answer.2 = true) ∧
    answersTo ['a'] (answers slowLimiter .empty [⟨['a'], 0⟩, ⟨['b'], 5⟩, ⟨['a'], 1000⟩]) =
      answers slowLimiter .empty (ofSubject ['a'] [⟨['a'], 0⟩, ⟨['b'], 5⟩, ⟨['a'], 1000⟩]) :=
  (frames_of_subject slowLimiter [⟨['a'], 0⟩, ⟨['b'], 5⟩, ⟨['a'], 1000⟩] (by decide) ['a']).2

/--
A subject whose bucket was made at a reading that the clock had passed already gains from the way back,
over which the clock's running maximum does not advance.
-/
theorem regressed_bucket_gains :
    ¬∀ (l : TokenBucketLimiter) (before stretch : List Call) (subject : Text), before ≠ [] →
      (subjects (before ++ stretch)).card < l.maxKeys →
      (passed (answersTo subject (answers l (replay l .empty before) stretch)) : Rat) ≤
        l.capacity + (runningMax (readings (before ++ stretch)) - runningMax (readings before)) *
          l.refillPerSecond / 1000 := by
  intro h
  have hstretch := h slowLimiter [⟨['b'], 1000⟩] [⟨['a'], 0⟩, ⟨['a'], 1000⟩] ['a'] (by decide) (by decide)
  revert hstretch
  decide +kernel

end Claim

end OpenWA.Events.Frames
