import OpenWA.Baileys.MessageStore

/-!
This module proves that the message store stays within its cap but for the puts that have not enforced
it, and that it gives up no message while fewer than the cap are newer.
-/

namespace OpenWA.Baileys.MessageStore

variable {ι : Type}

section Upsert

variable {rows : List (Row ι)} {row : Row ι}

/-- The write of a stored message, row by row. -/
def rewrite (row r : Row ι) : Row ι :=
  if r.message = row.message then
    { r with serializedMessage := row.serializedMessage, createdAt := row.createdAt }
  else r

theorem rewrite_message (row r : Row ι) : (rewrite row r).message = r.message := by
  unfold rewrite
  split <;> rfl

theorem rewrite_id (row r : Row ι) : (rewrite row r).id = r.id := by
  unfold rewrite
  split <;> rfl

theorem rewrite_sessionId (row r : Row ι) : (rewrite row r).sessionId = r.sessionId :=
  congrArg Prod.fst (rewrite_message row r)

/-- An upsert adds the row, or writes the one that is there. -/
theorem upsert_cases (rows : List (Row ι)) (row : Row ι) :
    (∀ r ∈ rows, r.message ≠ row.message) ∧ upsert rows row = rows ++ [row] ∨
      upsert rows row = rows.map (rewrite row) := by
  unfold upsert
  split
  . exact .inr rfl
  . next hany => exact .inl ⟨by simpa using hany, rfl⟩

theorem nodup_message_upsert (h : (rows.map Row.message).Nodup) :
    ((upsert rows row).map Row.message).Nodup := by
  rcases upsert_cases rows row with ⟨hnew, heq⟩ | heq <;> rw [heq]
  . rw [List.map_append, List.map_singleton]
    refine List.nodup_append.mpr ⟨h, by simp, ?_⟩
    intro m hm m' hm' hmm
    rcases List.mem_map.mp hm with ⟨r, hr, rfl⟩
    rw [List.mem_singleton.mp hm'] at hmm
    exact hnew r hr hmm
  . rw [List.map_map]
    exact (List.map_congr_left fun r _ => rewrite_message row r) ▸ h

theorem nodup_id_upsert (h : (rows.map Row.id).Nodup) (hfresh : ∀ r ∈ rows, r.id ≠ row.id) :
    ((upsert rows row).map Row.id).Nodup := by
  rcases upsert_cases rows row with ⟨-, heq⟩ | heq <;> rw [heq]
  . rw [List.map_append, List.map_singleton]
    refine List.nodup_append.mpr ⟨h, by simp, ?_⟩
    intro i hi i' hi' hii
    rcases List.mem_map.mp hi with ⟨r, hr, rfl⟩
    rw [List.mem_singleton.mp hi'] at hii
    exact hfresh r hr hii
  . rw [List.map_map]
    exact (List.map_congr_left fun r _ => rewrite_id row r) ▸ h

theorem held_upsert_le (rows : List (Row ι)) (row : Row ι) (sessionId : String) :
    held (upsert rows row) sessionId ≤ held rows sessionId + if row.sessionId = sessionId then 1 else 0 := by
  rcases upsert_cases rows row with ⟨-, heq⟩ | heq <;> rw [heq] <;> unfold held
  . simp [List.countP_append, List.countP_singleton]
  . rw [List.countP_map]
    refine Nat.le_add_right_of_le (List.countP_mono_left fun r _ h => ?_)
    simpa [rewrite_sessionId] using h

variable [LinearOrder ι]

/-- Of the rows of distinct messages, a write can make one newer than a key. -/
theorem newer_map_rewrite_le (h : (rows.map Row.message).Nodup) (sessionId : String) (k : Int ×ₗ ι) :
    newer (rows.map (rewrite row)) sessionId k ≤
      newer rows sessionId k + if row.sessionId = sessionId then 1 else 0 := by
  induction rows with
  | nil => exact Nat.zero_le _
  | cons r rows ih =>
    rw [List.map_cons, List.nodup_cons] at h
    by_cases hr : r.message = row.message
    . -- no later row is written
      have hsame : rows.map (rewrite row) = rows := by
        refine (List.map_congr_left fun r' hr' => if_neg ?_).trans (List.map_id rows)
        intro heq
        exact h.1 (List.mem_map.mpr ⟨r', hr', heq.trans hr.symm⟩)
      have hsession : (rewrite row r).sessionId = row.sessionId := by
        rw [rewrite_sessionId]
        exact congrArg Prod.fst hr
      rw [List.map_cons, hsame]
      simp only [newer, List.countP_cons, hsession]
      split <;> split <;> split <;> simp_all
      omega
    . have hkeep : rewrite row r = r := if_neg hr
      have := ih h.2
      simp only [newer, List.map_cons, List.countP_cons, hkeep] at this ⊢
      omega

theorem newer_upsert_le (row : Row ι) (h : (rows.map Row.message).Nodup) (sessionId : String) (k : Int ×ₗ ι) :
    newer (upsert rows row) sessionId k ≤
      newer rows sessionId k + if row.sessionId = sessionId then 1 else 0 := by
  rcases upsert_cases rows row with ⟨-, heq⟩ | heq <;> rw [heq]
  . simp only [newer, List.countP_append, List.countP_singleton]
    split <;> split <;> simp_all
  . exact newer_map_rewrite_le h sessionId k

/-- A write at a time that no row is ahead of only makes rows newer. -/
theorem newer_le_upsert (hpast : ∀ r ∈ rows, r.createdAt ≤ row.createdAt) (sessionId : String)
    (k : Int ×ₗ ι) : newer rows sessionId k ≤ newer (upsert rows row) sessionId k := by
  rcases upsert_cases rows row with ⟨-, heq⟩ | heq <;> rw [heq] <;> unfold newer
  . simp [List.countP_append]
  . rw [List.countP_map]
    refine List.countP_mono_left fun r hr h => ?_
    simp only [Bool.and_eq_true, decide_eq_true_eq, Function.comp_apply, rewrite_sessionId] at h ⊢
    refine ⟨h.1, lt_of_lt_of_le h.2 ?_⟩
    unfold rewrite
    split
    . rw [Row.key, Row.key, Prod.Lex.toLex_le_toLex]
      rcases lt_or_eq_of_le (hpast r hr) with hlt | heq
      . exact .inl hlt
      . exact .inr ⟨heq, le_refl _⟩
    . exact le_refl _

end Upsert

section Puts

variable {puts : List (Put ι)} {put : Put ι} {phase : Phase ι} {p n : Nat} {sessionId : String}

theorem unfinished_append (puts puts' : List (Put ι)) (sessionId : String) :
    unfinished (puts ++ puts') sessionId = unfinished puts sessionId + unfinished puts' sessionId :=
  List.countP_append

theorem unfinished_stored (session sessionId : String) :
    unfinished [(⟨session, .stored⟩ : Put ι)] sessionId = if session = sessionId then 1 else 0 := by
  simp [unfinished, List.countP_singleton]

theorem unfinished_drop_anti {m : Nat} (h : n ≤ m) (puts : List (Put ι)) (sessionId : String) :
    unfinished (puts.drop m) sessionId ≤ unfinished (puts.drop n) sessionId := by
  obtain ⟨d, rfl⟩ := Nat.exists_eq_add_of_le h
  rw [← List.drop_drop]
  exact (List.drop_sublist d _).countP_le

/-- A put that does not finish counts as before. -/
theorem unfinished_drop_set (hp : puts[p]? = some put)
    (h : unfinished [{ put with phase := phase }] sessionId = unfinished [put] sessionId) (n : Nat) :
    unfinished ((puts.set p { put with phase := phase }).drop n) sessionId =
      unfinished (puts.drop n) sessionId := by
  induction puts generalizing p n with
  | nil => simp at hp
  | cons q puts ih =>
    cases p with
    | zero =>
      cases hp
      cases n with
      | zero =>
        simpa [unfinished, List.countP_cons] using h
      | succ n => rfl
    | succ p =>
      cases n with
      | zero =>
        have := ih hp 0
        simp only [List.drop_zero, List.set_cons_succ] at this ⊢
        simpa [unfinished, List.countP_cons] using this
      | succ n => simpa using ih hp n

end Puts

theorem held_filter_le (q : Row ι → Bool) (rows : List (Row ι)) (sessionId : String) :
    held (rows.filter q) sessionId ≤ held rows sessionId :=
  List.filter_sublist.countP_le

theorem getMessage_eq_some {s : Store ι} {sessionId message : String} {row : Row ι} (h : s.getMessage sessionId message = some row) :
    row ∈ s.rows ∧ row.sessionId = sessionId ∧ row.waMessageId = message := by
  unfold Store.getMessage at h
  split at h
  . contradiction
  . have := List.find?_some h
    simp only [Bool.and_eq_true, decide_eq_true_eq] at this
    exact ⟨List.mem_of_find?_eq_some h, this.1, this.2⟩

theorem message_ne_of_getMessage {s : Store ι} {sessionId message : String} (hne : message ≠ "")
    (h : s.getMessage sessionId message = none) : ∀ r ∈ s.rows, r.message ≠ (sessionId, message) := by
  intro r hr heq
  unfold Store.getMessage at h
  split at h
  . next hempty => exact hne (String.isEmpty_iff.mp hempty)
  . have := List.find?_eq_none.mp h r hr
    simp only [Row.message, Prod.mk.injEq] at heq
    simp [heq.1, heq.2] at this

section Steps

variable [LinearOrder ι] {limit : Nat} {s s' : Store ι} {sessionId : String} {p : Nat}

theorem of_find {answered : Bool} (h : s.step limit (.find p answered) = some s') :
    ∃ put, s.puts[p]? = some put ∧ put.phase = .stored ∧
      (s' = s.setPhase p put .failed ∨
        findCutoff limit s.rows put.sessionId = none ∧ s' = s.setPhase p put .finished ∨
        ∃ cutoff, findCutoff limit s.rows put.sessionId = some cutoff ∧
          s' = s.setPhase p put (.holding cutoff s.puts.length)) := by
  simp only [Store.step] at h
  split at h
  . next put hp =>
    split at h
    . next hphase =>
      refine ⟨put, hp, hphase, ?_⟩
      split at h
      . split at h
        . next hnone => exact .inr (.inl ⟨hnone, (Option.some.inj h).symm⟩)
        . next cutoff hcutoff => exact .inr (.inr ⟨cutoff, hcutoff, (Option.some.inj h).symm⟩)
      . exact .inl (Option.some.inj h).symm
    . contradiction
  . contradiction

theorem of_delete {answered : Bool} (h : s.step limit (.delete p answered) = some s') :
    ∃ put cutoff n, s.puts[p]? = some put ∧ put.phase = .holding cutoff n ∧
      (s' = s.setPhase p put .failed ∨
        s' = Store.setPhase { s with rows := s.rows.filter (! evicts put.sessionId cutoff ·) } p put
          .finished) := by
  simp only [Store.step] at h
  split at h
  . next put hp =>
    split at h
    . next cutoff n hphase =>
      refine ⟨put, cutoff, n, hp, hphase, ?_⟩
      split at h
      . exact .inr (Option.some.inj h).symm
      . exact .inl (Option.some.inj h).symm
    . contradiction
  . contradiction

theorem of_put {id : ι} {session message content : String}
    (h : s.step limit (.put id session message content) = some s') :
    (∀ r ∈ s.rows, r.id ≠ id) ∧ s' =
      {
        s with
        rows := upsert s.rows ⟨id, session, message, content, s.now⟩
        puts := s.puts ++ [⟨session, .stored⟩]
      } := by
  simp only [Store.step] at h
  split at h
  . contradiction
  . next hguard =>
    simp only [Bool.or_eq_true, List.any_eq_true, decide_eq_true_eq, not_or, not_exists, not_and]
      at hguard
    exact ⟨fun r hr => hguard.2 r hr, (Option.some.inj h).symm⟩

theorem newer_filter_other {session : String} (cutoff : Row ι) (hne : session ≠ sessionId)
    (rows : List (Row ι)) (k : Int ×ₗ ι) :
    newer (rows.filter (! evicts session cutoff ·)) sessionId k = newer rows sessionId k := by
  unfold newer
  rw [List.countP_filter]
  refine List.countP_congr fun row _ => ?_
  simp only [evicts, Bool.and_eq_true, decide_eq_true_eq, Bool.not_eq_true', Bool.and_eq_false_iff]
  grind

theorem held_filter_other {session : String} (cutoff : Row ι) (hne : session ≠ sessionId)
    (rows : List (Row ι)) :
    held (rows.filter (! evicts session cutoff ·)) sessionId = held rows sessionId := by
  unfold held
  rw [List.countP_filter]
  refine List.countP_congr fun row _ => ?_
  simp only [evicts, Bool.and_eq_true, decide_eq_true_eq, Bool.not_eq_true', Bool.and_eq_false_iff]
  grind

theorem newer_filter_le (q : Row ι → Bool) (rows : List (Row ι)) (k : Int ×ₗ ι) :
    newer (rows.filter q) sessionId k ≤ newer rows sessionId k :=
  List.filter_sublist.countP_le

/--
The rows of the session beyond the cap are accounted for by puts that have not enforced it, and those
newer than a cutoff by the puts that wrote their row after it was read.
-/
structure Store.Bounded (limit : Nat) (sessionId : String) (s : Store ι) : Prop where
  unique : (s.rows.map Row.message).Nodup
  total : held s.rows sessionId ≤ limit + unfinished s.puts sessionId
  cutoff : ∀ (p : Nat) put c n, s.puts[p]? = some put → put.sessionId = sessionId →
    put.phase = .holding c n → p < n ∧ n ≤ s.puts.length ∧
      newer s.rows sessionId c.key ≤ limit + unfinished (s.puts.drop n) sessionId

namespace Store.Bounded

theorem put {id : ι} {session message content : String} (hb : s.Bounded limit sessionId) :
    Store.Bounded limit sessionId
      {
        s with
        rows := upsert s.rows ⟨id, session, message, content, s.now⟩
        puts := s.puts ++ [⟨session, .stored⟩]
      } where
  unique := nodup_message_upsert hb.unique
  total := by
    have hheld := held_upsert_le s.rows ⟨id, session, message, content, s.now⟩ sessionId
    have htotal := hb.total
    dsimp only at hheld
    simp only [unfinished_append, unfinished_stored]
    omega
  cutoff p put c n hp hsession hphase := by
    rw [List.getElem?_append] at hp
    split at hp
    . rcases hb.cutoff p put c n hp hsession hphase with ⟨hlt, hle, hnewer⟩
      have hupsert := newer_upsert_le ⟨id, session, message, content, s.now⟩ hb.unique
        sessionId c.key
      dsimp only at hupsert
      refine ⟨hlt, by simp; omega, ?_⟩
      dsimp only
      rw [List.drop_append_of_le_length hle, unfinished_append, unfinished_stored]
      omega
    . rw [List.getElem?_singleton] at hp
      split at hp
      . cases hp
        contradiction
      . contradiction

/-- A put moves on without a change of the table, and does not finish. -/
theorem setPhase {put : Put ι} {phase : Phase ι} (hb : s.Bounded limit sessionId)
    (hp : s.puts[p]? = some put)
    (hcount : unfinished [{ put with phase := phase }] sessionId = unfinished [put] sessionId)
    (hcutoff : ∀ c n, put.sessionId = sessionId → phase = .holding c n → p < n ∧ n ≤ s.puts.length ∧
      newer s.rows sessionId c.key ≤ limit + unfinished (s.puts.drop n) sessionId) :
    (s.setPhase p put phase).Bounded limit sessionId where
  unique := hb.unique
  total := by
    have := unfinished_drop_set hp hcount 0
    simp only [List.drop_zero] at this
    simpa [Store.setPhase, this] using hb.total
  cutoff p' put' c n hp' hsession hphase := by
    simp only [Store.setPhase, List.length_set] at hp' ⊢
    rw [unfinished_drop_set hp hcount n]
    rw [List.getElem?_set] at hp'
    split at hp'
    . next heq =>
      subst heq
      split at hp'
      . cases hp'
        exact hcutoff c n hsession hphase
      . contradiction
    . exact hb.cutoff p' put' c n hp' hsession hphase

/-- A put finishes, and the rows that are left are the puts' that come after some number. -/
theorem finish {put : Put ι} {rows : List (Row ι)} {n : Nat} (hb : s.Bounded limit sessionId)
    (hunique : (rows.map Row.message).Nodup) (hp : p < n)
    (hheld : held rows sessionId ≤ limit + unfinished (s.puts.drop n) sessionId)
    (hnewer : ∀ k, newer rows sessionId k ≤ newer s.rows sessionId k) :
    Store.Bounded limit sessionId
      ({ s with rows := rows, puts := s.puts.set p { put with phase := .finished } } : Store ι) where
  unique := hunique
  total := by
    have hdrop : (s.puts.set p { put with phase := .finished }).drop n = s.puts.drop n :=
      List.drop_set_of_lt hp
    have := unfinished_drop_anti (Nat.zero_le n) (s.puts.set p { put with phase := .finished }) sessionId
    rw [hdrop, List.drop_zero] at this
    dsimp only
    omega
  cutoff p' put' c n' hp' hsession hphase := by
    have hold : s.puts[p']? = some put' := by
      rw [List.getElem?_set] at hp'
      split at hp'
      . split at hp'
        . cases hp'
          contradiction
        . contradiction
      . exact hp'
    rcases hb.cutoff p' put' c n' hold hsession hphase with ⟨hlt, hle, hbound⟩
    refine ⟨hlt, by simpa using hle, ?_⟩
    have hdrop : (s.puts.set p { put with phase := .finished }).drop n = s.puts.drop n :=
      List.drop_set_of_lt hp
    rcases Nat.lt_or_ge p n' with hafter | hbefore
    . -- the cutoff was read after the finished put wrote its row
      rw [List.drop_set_of_lt hafter]
      exact Nat.le_trans (hnewer _) hbound
    . have hanti := unfinished_drop_anti (Nat.le_trans hbefore (Nat.le_of_lt hp))
        (s.puts.set p { put with phase := .finished }) sessionId
      have hall := newer_le_held rows sessionId c.key
      rw [hdrop] at hanti
      dsimp only
      omega

theorem step {e : Event ι} (hb : s.Bounded limit sessionId) (h : s.step limit e = some s') :
    s'.Bounded limit sessionId := by
  cases e with
  | clock now =>
    cases h
    exact ⟨hb.unique, hb.total, hb.cutoff⟩
  | put id session message content =>
    rcases of_put h with ⟨-, rfl⟩
    exact hb.put
  | find p answered =>
    rcases of_find h with ⟨put, hp, hphase, rfl | ⟨hnone, rfl⟩ | ⟨cutoff, hcutoff, rfl⟩⟩
    . exact hb.setPhase hp (by simp [unfinished, List.countP_singleton, hphase]) (by simp)
    . by_cases hsession : put.sessionId = sessionId
      . have hheld := held_le_of_findCutoff hnone
        rw [hsession] at hheld
        exact hb.finish (n := p + 1) hb.unique (Nat.lt_succ_self p) (by omega) fun _ => Nat.le_refl _
      . exact hb.setPhase hp (by simp [unfinished, hsession]) (by simp)
    . refine hb.setPhase hp (by simp [unfinished, List.countP_singleton, hphase]) ?_
      rintro c n hsession ⟨⟩
      refine ⟨(List.getElem?_eq_some_iff.mp hp).1, Nat.le_refl _, ?_⟩
      exact Nat.le_add_right_of_le (hsession ▸ newer_le_of_findCutoff hcutoff)
  | delete p answered =>
    rcases of_delete h with ⟨put, cutoff, n, hp, hphase, rfl | rfl⟩
    . exact hb.setPhase hp (by simp [unfinished, List.countP_singleton, hphase]) (by simp)
    . have hunique : ((s.rows.filter (! evicts put.sessionId cutoff ·)).map Row.message).Nodup :=
        (List.filter_sublist.map Row.message).nodup hb.unique
      by_cases hsession : put.sessionId = sessionId
      . rcases hb.cutoff p put cutoff n hp hsession hphase with ⟨hlt, -, hbound⟩
        refine hb.finish hunique hlt ?_ fun k => newer_filter_le _ _ k
        rw [hsession, held_filter_evicts]
        exact hbound
      . have hkept : Store.Bounded limit sessionId
            { s with rows := s.rows.filter (! evicts put.sessionId cutoff ·) } := by
          refine ⟨hunique, ?_, ?_⟩
          . simpa [held_filter_other cutoff hsession] using hb.total
          . simpa [newer_filter_other cutoff hsession] using hb.cutoff
        exact hkept.setPhase hp (by simp [unfinished, hsession]) (by simp)
  | clear session =>
    cases h
    refine ⟨(List.filter_sublist.map Row.message).nodup hb.unique,
      Nat.le_trans (held_filter_le _ _ _) hb.total, ?_⟩
    intro p put c n hp hput hphase
    rcases hb.cutoff p put c n hp hput hphase with ⟨hlt, hle, hbound⟩
    exact ⟨hlt, hle, Nat.le_trans (newer_filter_le _ _ _) hbound⟩

end Store.Bounded

/--
However the puts of a session overlap and whatever fails, the store has no more rows of it than the cap
and the puts that have not enforced the cap.
-/
theorem held_le_of_reach {ok : Store ι → Event ι → Prop} (init : Store ι)
    (hunique : (init.rows.map Row.message).Nodup) (hputs : init.puts = [])
    (hinit : held init.rows sessionId ≤ limit) (h : Store.Reach limit ok init s) :
    held s.rows sessionId ≤ limit + unfinished s.puts sessionId := by
  suffices hb : s.Bounded limit sessionId from hb.total
  induction h with
  | init => exact ⟨hunique, by omega, by simp [hputs]⟩
  | step e _ _ hstep ih => exact ih.step hstep

/-- The clock does not step back, and nobody clears the session. -/
def Undisturbed (sessionId : String) (s : Store ι) (e : Event ι) : Prop :=
  match e with
  | .clock now => s.now ≤ now
  | .clear session => session ≠ sessionId
  | .put .. | .find .. | .delete .. => True

/-- Every cutoff that a put holds leaves as many rows of the session as the cap allows. -/
structure Store.Keeping (limit : Nat) (sessionId : String) (s : Store ι) : Prop where
  ids : (s.rows.map Row.id).Nodup
  past : ∀ r ∈ s.rows, r.createdAt ≤ s.now
  cutoff : ∀ (p : Nat) put c n, s.puts[p]? = some put → put.sessionId = sessionId →
    put.phase = .holding c n → limit ≤ newer s.rows sessionId c.key

namespace Store.Keeping

theorem put {id : ι} {session message content : String} (hk : s.Keeping limit sessionId)
    (hfresh : ∀ r ∈ s.rows, r.id ≠ id) :
    Store.Keeping limit sessionId
      {
        s with
        rows := upsert s.rows ⟨id, session, message, content, s.now⟩
        puts := s.puts ++ [⟨session, .stored⟩]
      } where
  ids := nodup_id_upsert hk.ids hfresh
  past r hr := by
    rcases upsert_cases s.rows ⟨id, session, message, content, s.now⟩ with ⟨-, heq⟩ | heq <;>
      simp only [heq] at hr
    . rcases List.mem_append.mp hr with hr | hr
      . exact hk.past r hr
      . cases List.mem_singleton.mp hr
        exact Int.le_refl _
    . rcases List.mem_map.mp hr with ⟨r₀, hr₀, rfl⟩
      unfold rewrite
      split
      . exact Int.le_refl _
      . exact hk.past r₀ hr₀
  cutoff p put c n hp hsession hphase := by
    rw [List.getElem?_append] at hp
    split at hp
    . exact Nat.le_trans (hk.cutoff p put c n hp hsession hphase) (newer_le_upsert hk.past _ _)
    . rw [List.getElem?_singleton] at hp
      split at hp
      . cases hp
        contradiction
      . contradiction

/-- A put moves on, and no row that is newer than a cutoff is lost. -/
theorem setPhase {put : Put ι} {phase : Phase ι} {rows : List (Row ι)} (hk : s.Keeping limit sessionId)
    (hrows : rows.Sublist s.rows)
    (hcutoff : ∀ c n, put.sessionId = sessionId → phase = .holding c n →
      limit ≤ newer rows sessionId c.key)
    (hkept : ∀ k, limit ≤ newer s.rows sessionId k → limit ≤ newer rows sessionId k) :
    Store.Keeping limit sessionId (Store.setPhase { s with rows := rows } p put phase) where
  ids := (hrows.map Row.id).nodup hk.ids
  past r hr := hk.past r (hrows.subset hr)
  cutoff p' put' c n hp' hsession hphase := by
    simp only [Store.setPhase] at hp' ⊢
    rw [List.getElem?_set] at hp'
    split at hp'
    . split at hp'
      . cases hp'
        exact hcutoff c n hsession hphase
      . contradiction
    . exact hkept _ (hk.cutoff p' put' c n hp' hsession hphase)

theorem step {e : Event ι} (hk : s.Keeping limit sessionId) (hok : Undisturbed sessionId s e)
    (h : s.step limit e = some s') : s'.Keeping limit sessionId := by
  cases e with
  | clock now =>
    cases h
    exact ⟨hk.ids, fun r hr => Int.le_trans (hk.past r hr) hok, hk.cutoff⟩
  | put id session message content =>
    rcases of_put h with ⟨hfresh, rfl⟩
    exact hk.put hfresh
  | find p answered =>
    rcases of_find h with ⟨put, hp, -, rfl | ⟨-, rfl⟩ | ⟨cutoff, hcutoff, rfl⟩⟩
    . exact hk.setPhase (.refl _) (by simp) fun _ h => h
    . exact hk.setPhase (.refl _) (by simp) fun _ h => h
    . refine hk.setPhase (.refl _) ?_ fun _ h => h
      rintro c n hsession ⟨⟩
      exact hsession ▸ le_newer_of_findCutoff hk.ids hcutoff
  | delete p answered =>
    rcases of_delete h with ⟨put, cutoff, n, hp, hphase, rfl | rfl⟩
    . exact hk.setPhase (.refl _) (by simp) fun _ h => h
    . refine hk.setPhase List.filter_sublist (by simp) ?_
      intro k hlimit
      by_cases hsession : put.sessionId = sessionId
      . have hcutoff := hk.cutoff p put cutoff n hp hsession hphase
        rw [hsession]
        rcases le_total cutoff.key k with hle | hle
        . rwa [newer_filter_evicts hle]
        . refine Nat.le_trans ?_ (newer_anti hle)
          rwa [newer_filter_evicts (le_refl _)]
      . rwa [newer_filter_other cutoff hsession]
  | clear session =>
    cases h
    refine ⟨(List.filter_sublist.map Row.id).nodup hk.ids, fun r hr => hk.past r (List.mem_of_mem_filter hr),
      ?_⟩
    intro p put c n hp hput hphase
    have hsame : newer (s.rows.filter (·.sessionId ≠ session)) sessionId c.key =
        newer s.rows sessionId c.key := by
      unfold newer
      rw [List.countP_filter]
      refine List.countP_congr fun row _ => ?_
      have hne : session ≠ sessionId := hok
      simp only [Bool.and_eq_true, decide_eq_true_eq, ne_eq]
      grind
    exact hsame ▸ hk.cutoff p put c n hp hput hphase

theorem of_reach {init : Store ι} (hids : (init.rows.map Row.id).Nodup)
    (hpast : ∀ r ∈ init.rows, r.createdAt ≤ init.now) (hputs : init.puts = [])
    (h : Store.Reach limit (Undisturbed sessionId) init s) : s.Keeping limit sessionId := by
  induction h with
  | init => exact ⟨hids, hpast, by simp [hputs]⟩
  | step e _ hok hstep ih => exact ih.step hok hstep

end Store.Keeping

end Steps

namespace Sample

/-- A store for one message, where the second put takes its turn first. -/
def empty : Store Nat := ⟨[], [], 0⟩

def first : Row Nat := ⟨0, "s", "a", "", 0⟩

def second : Row Nat := ⟨1, "s", "b", "", 1⟩

def both : Store Nat := ⟨[first, second], [⟨"s", .stored⟩, ⟨"s", .holding first 2⟩], 1⟩

theorem reach_both : Store.Reach 1 (Undisturbed "s") empty both := by
  refine .step (.find 1 true) (.step (.put 1 "s" "b" "") (.step (.clock 1)
    (.step (.put 0 "s" "a" "") .init trivial rfl) ?_ rfl) trivial rfl) trivial rfl
  exact Int.one_nonneg

end Sample

open Sample in
/-- `held_le_of_reach` with two puts on their way. -/
theorem held_le_of_reach_sample : held both.rows "s" ≤ 3 :=
  held_le_of_reach empty List.nodup_nil rfl (by decide) reach_both

end OpenWA.Baileys.MessageStore
