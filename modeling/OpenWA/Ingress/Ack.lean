import OpenWA.Js.Json
import OpenWA.Js.Split

/-!
This module contains the acknowledgement that a route declares for its inbound webhooks, and what of
its template is not filled in by one pass over it.
-/

namespace OpenWA.Ingress

open Js

/-- `response.ack` of a route, with whatever a manifest may hold in it. -/
structure AckSpec where
  status : Option Json
  body : Option Json
  headers : Option Json

structure AckRenderCtx where
  rawBody : Text
  timestamp : Text
  id : Text

structure AckResult where
  status : Rat
  body : Option Text
  headers : Option (List (String × String))
deriving DecidableEq

def rawBodyKey : Text := "{rawBody}".toList

def timestampKey : Text := "{timestamp}".toList

def idKey : Text := "{id}".toList

def substitute (template : Text) (ctx : AckRenderCtx) : Text :=
  let t := replaceAll rawBodyKey ctx.rawBody template
  let t := replaceAll timestampKey ctx.timestamp t
  replaceAll idKey ctx.id t

/-- An entry whose value is a string. -/
def stringEntry (entry : String × Json) : Option (String × String) :=
  match entry.2 with
  | .string s => some (entry.1, s)
  | _ => none

def renderAck (spec : Option AckSpec) (ctx : AckRenderCtx) : AckResult :=
  match spec with
  | none => { status := 202, body := some "accepted".toList, headers := none }
  | some spec =>
    let status :=
      match spec.status with
      | some (.number n) => n
      | _ => 202
    let body :=
      match spec.body with
      | some (.string template) => some (substitute template.toList ctx)
      | _ => none
    let headers := (spec.headers.bind Json.entries?).map fun entries => entries.filterMap stringEntry
    { status := status, body := body, headers := headers }

section SinglePass

/-- The template with each placeholder in it replaced by its value, all in one pass. -/
def singlePass (template : Text) (ctx : AckRenderCtx) : Text :=
  replaceEach [(rawBodyKey, ctx.rawBody), (timestampKey, ctx.timestamp), (idKey, ctx.id)] template

/-- The ack of a route that declares `template` as its body. -/
def declaring (spec : AckSpec) (template : String) : AckSpec :=
  { spec with body := some (.string template) }

/-- The body of the ack is the template filled in by one pass. -/
def RendersInOnePass (spec : AckSpec) (template : String) (ctx : AckRenderCtx) : Prop :=
  (renderAck (some (declaring spec template)) ctx).body = some (singlePass template.toList ctx)

/--
What a later pass finds is in the template: with the raw body filled in, no stretch between two of the
template's own `{timestamp}` contains one, and with the timestamp filled in as well no stretch between
two of its own `{id}` contains one; or what the pass inserts is the placeholder it replaces.
-/
structure Undisturbed (template : Text) (ctx : AckRenderCtx) : Prop where
  timestamp : ctx.timestamp = timestampKey ∨ ∀ piece ∈ split timestampKey template,
    ¬ timestampKey <:+: replaceEach [(rawBodyKey, ctx.rawBody)] piece
  id : ctx.id = idKey ∨ ∀ piece ∈ split idKey template,
    ¬ idKey <:+: replaceEach [(rawBodyKey, ctx.rawBody), (timestampKey, ctx.timestamp)] piece

/-- What `String(Math.floor(now / 1000))` yields. -/
def isEpochSeconds (t : Text) : Bool := !t.isEmpty && t.all Char.isDigit

theorem marked_rawBodyKey : Marked '{' rawBodyKey := ⟨_, rfl, by decide⟩

theorem marked_timestampKey : Marked '{' timestampKey := ⟨_, rfl, by decide⟩

theorem marked_idKey : Marked '{' idKey := ⟨_, rfl, by decide⟩

variable {template : Text} {ctx : AckRenderCtx}

/-- The rules of the first passes. -/
def bodyRules (ctx : AckRenderCtx) : List (Text × Text) := [(rawBodyKey, ctx.rawBody)]

def timestampRules (ctx : AckRenderCtx) : List (Text × Text) :=
  [(rawBodyKey, ctx.rawBody), (timestampKey, ctx.timestamp)]

theorem marked_bodyRules (ctx : AckRenderCtx) : ∀ rule ∈ bodyRules ctx, Marked '{' rule.1 := by
  simp [bodyRules, marked_rawBodyKey]

theorem marked_timestampRules (ctx : AckRenderCtx) :
    ∀ rule ∈ timestampRules ctx, Marked '{' rule.1 := by
  simp [timestampRules, marked_rawBodyKey, marked_timestampKey]

theorem apart_timestampKey (ctx : AckRenderCtx) :
    ∀ rule ∈ bodyRules ctx, ¬ rule.1 <+: timestampKey ∧ ¬ timestampKey <+: rule.1 := by
  simp only [bodyRules, List.forall_mem_singleton]
  decide

theorem apart_idKey (ctx : AckRenderCtx) :
    ∀ rule ∈ timestampRules ctx, ¬ rule.1 <+: idKey ∧ ¬ idKey <+: rule.1 := by
  simp only [timestampRules, List.forall_mem_cons, List.not_mem_nil, false_implies, implies_true,
    and_true]
  decide

/-- The second pass, stretch by stretch. -/
theorem timestampPass_eq (template : Text) (ctx : AckRenderCtx) :
    replaceAll timestampKey ctx.timestamp (replaceAll rawBodyKey ctx.rawBody template) =
      join ctx.timestamp (((split timestampKey template).map (replaceEach (bodyRules ctx))).map
        (replaceAll timestampKey ctx.timestamp)) := by
  rw [replaceAll_eq_replaceEach marked_rawBodyKey, List.map_map]
  apply replaceAll_replaceEach (marked_bodyRules ctx) marked_timestampKey (apart_timestampKey ctx)

theorem timestampPass_iff (template : Text) (ctx : AckRenderCtx) :
    replaceAll timestampKey ctx.timestamp (replaceAll rawBodyKey ctx.rawBody template) =
        replaceEach (timestampRules ctx) template ↔
      ctx.timestamp = timestampKey ∨ ∀ piece ∈ split timestampKey template,
        ¬ timestampKey <:+: replaceEach (bodyRules ctx) piece := by
  have hone := replaceEach_concat (marked_bodyRules ctx) marked_timestampKey
    (apart_timestampKey ctx) ctx.timestamp template
  have hne : (split timestampKey template).map (replaceEach (bodyRules ctx)) ≠ [] := by
    simp [split_ne_nil]
  rw [timestampPass_eq]
  show _ = replaceEach (bodyRules ctx ++ [(timestampKey, ctx.timestamp)]) template ↔ _
  rw [hone, join_replaceAll_iff marked_timestampKey ctx.timestamp hne]
  simp

/-- The third pass after a second one that filled in the template's placeholders only. -/
theorem idPass_iff (template : Text) (ctx : AckRenderCtx) :
    replaceAll idKey ctx.id (replaceEach (timestampRules ctx) template) = singlePass template ctx ↔
      ctx.id = idKey ∨ ∀ piece ∈ split idKey template,
        ¬ idKey <:+: replaceEach (timestampRules ctx) piece := by
  have hone := replaceEach_concat (marked_timestampRules ctx) marked_idKey (apart_idKey ctx) ctx.id
    template
  have htwo := replaceAll_replaceEach (marked_timestampRules ctx) marked_idKey (apart_idKey ctx)
    ctx.id template
  have hne : (split idKey template).map (replaceEach (timestampRules ctx)) ≠ [] := by
    simp [split_ne_nil]
  have hiff := join_replaceAll_iff marked_idKey ctx.id hne
  rw [htwo]
  show _ = replaceEach (timestampRules ctx ++ [(idKey, ctx.id)]) template ↔ _
  rw [List.map_map, List.forall_mem_map] at hiff
  rw [hone]
  exact hiff

theorem rendersInOnePass_iff (spec : AckSpec) (template : String) (ctx : AckRenderCtx) :
    RendersInOnePass spec template ctx ↔
      substitute template.toList ctx = singlePass template.toList ctx := by
  unfold RendersInOnePass
  simp [renderAck, declaring]

theorem substitute_of_undisturbed {template : Text} {ctx : AckRenderCtx}
    (h : Undisturbed template ctx) : substitute template ctx = singlePass template ctx := by
  unfold substitute
  dsimp only
  rw [(timestampPass_iff template ctx).mpr h.timestamp]
  exact (idPass_iff template ctx).mpr h.id

/-- The passes bring in the digits that one pass does, and those of each further timestamp. -/
theorem countP_substitute (template : Text) (ctx : AckRenderCtx) :
    (singlePass template ctx).countP Char.isDigit +
        ((split timestampKey template).map fun piece =>
          occurrences timestampKey (replaceEach (bodyRules ctx) piece)).sum *
            ctx.timestamp.countP Char.isDigit ≤
      (substitute template ctx).countP Char.isDigit := by
  have hkeys : timestampKey.countP Char.isDigit = 0 ∧ idKey.countP Char.isDigit = 0 := by decide
  have hbody := apart_timestampKey ctx
  have hid : ∀ rule ∈ bodyRules ctx, ¬ rule.1 <+: idKey ∧ ¬ idKey <+: rule.1 := by
    simp only [bodyRules, List.forall_mem_singleton]
    decide
  have htimestamp : ∀ rule ∈ [(timestampKey, ctx.timestamp)], Marked '{' rule.1 := by
    simp [marked_timestampKey]
  have hlast : ∀ rule ∈ [(timestampKey, ctx.timestamp)],
      ¬ rule.1 <+: idKey ∧ ¬ idKey <+: rule.1 := by
    simp only [List.forall_mem_singleton]
    decide
  have hone := countP_replaceEach_concat (marked_timestampRules ctx) marked_idKey (apart_idKey ctx)
    ctx.id template Char.isDigit
  have hone' := countP_replaceEach_concat (marked_bodyRules ctx) marked_timestampKey hbody
    ctx.timestamp template Char.isDigit
  have htwo := countP_replaceAll marked_timestampKey.ne_nil Char.isDigit ctx.timestamp
    (replaceEach (bodyRules ctx) template)
  have hthree := countP_replaceAll marked_idKey.ne_nil Char.isDigit ctx.id
    (replaceAll timestampKey ctx.timestamp (replaceEach (bodyRules ctx) template))
  have hocc := occurrences_replaceEach (marked_bodyRules ctx) marked_timestampKey hbody template
  have hocc₂ := occurrences_replaceEach (marked_bodyRules ctx) marked_idKey hid template
  have hocc₃ := occurrences_replaceEach htimestamp marked_idKey hlast
    (replaceEach (bodyRules ctx) template)
  rw [← replaceAll_eq_replaceEach marked_timestampKey, hocc₂] at hocc₃
  rw [hkeys.2, Nat.mul_zero, Nat.add_zero] at hone hthree
  rw [hkeys.1, Nat.mul_zero, Nat.add_zero] at hone' htwo
  rw [hocc₃, Nat.add_mul, Nat.add_mul] at hthree
  rw [hocc, Nat.add_mul] at htwo
  have hsingle : singlePass template ctx =
      replaceEach (timestampRules ctx ++ [(idKey, ctx.id)]) template := rfl
  have hrules : timestampRules ctx = bodyRules ctx ++ [(timestampKey, ctx.timestamp)] := rfl
  unfold substitute
  dsimp only
  rw [replaceAll_eq_replaceEach marked_rawBodyKey]
  rw [hsingle, hone, hrules, hone']
  show _ ≤ (replaceAll idKey ctx.id (replaceAll timestampKey ctx.timestamp
    (replaceEach (bodyRules ctx) template))).countP Char.isDigit
  omega

theorem undisturbed_of_substitute {template : Text} {ctx : AckRenderCtx}
    (hepoch : isEpochSeconds ctx.timestamp)
    (h : substitute template ctx = singlePass template ctx) : Undisturbed template ctx := by
  have hdigits : 0 < ctx.timestamp.countP Char.isDigit := by
    simp only [isEpochSeconds, Bool.and_eq_true, Bool.not_eq_true', List.isEmpty_eq_false_iff,
      List.all_eq_true] at hepoch
    rw [List.countP_pos_iff]
    cases htimestamp : ctx.timestamp with
    | nil => exact absurd htimestamp hepoch.1
    | cons c rest => exact ⟨c, by simp, hepoch.2 c (by simp [htimestamp])⟩
  have hcount := countP_substitute template ctx
  rw [h] at hcount
  have hzero : ((split timestampKey template).map fun piece =>
      occurrences timestampKey (replaceEach (bodyRules ctx) piece)).sum = 0 := by
    rcases Nat.eq_zero_or_pos ((split timestampKey template).map fun piece =>
      occurrences timestampKey (replaceEach (bodyRules ctx) piece)).sum with hzero | hpos
    . exact hzero
    . have hprod := Nat.mul_pos hpos hdigits
      omega
  have htimestamp : ∀ piece ∈ split timestampKey template,
      ¬ timestampKey <:+: replaceEach (bodyRules ctx) piece := by
    intro piece hpiece
    rw [← occurrences_eq_zero_iff marked_timestampKey]
    apply List.sum_eq_zero_iff_forall_eq_nat.mp hzero
    exact List.mem_map_of_mem (f := fun piece =>
      occurrences timestampKey (replaceEach (bodyRules ctx) piece)) hpiece
  have htwo := (timestampPass_iff template ctx).mpr (.inr htimestamp)
  unfold substitute at h
  dsimp only at h
  rw [htwo] at h
  exact ⟨.inr htimestamp, (idPass_iff template ctx).mp h⟩

/--
The ack is its template filled in by one pass if nothing disturbs the later passes, and for the
timestamps that are stamped on a request only then.
-/
theorem rendersInOnePass_iff_undisturbed (spec : AckSpec) (template : String) (ctx : AckRenderCtx) :
    (Undisturbed template.toList ctx → RendersInOnePass spec template ctx) ∧
      (isEpochSeconds ctx.timestamp →
        (RendersInOnePass spec template ctx → Undisturbed template.toList ctx)) := by
  rw [rendersInOnePass_iff]
  exact ⟨substitute_of_undisturbed, undisturbed_of_substitute⟩

/-- An ack that echoes a body without placeholders. -/
theorem rendersInOnePass_echo :
    RendersInOnePass ⟨none, none, none⟩ "echo:{rawBody}:{id}"
        ⟨"\x7b\x7d".toList, "1700000000".toList, "d1".toList⟩ ∧
      (isEpochSeconds "1700000000".toList ∧ Undisturbed "echo:{rawBody}:{id}".toList
        ⟨"\x7b\x7d".toList, "1700000000".toList, "d1".toList⟩) := by
  have hboth := rendersInOnePass_iff_undisturbed ⟨none, none, none⟩ "echo:{rawBody}:{id}"
    ⟨"\x7b\x7d".toList, "1700000000".toList, "d1".toList⟩
  have h : RendersInOnePass ⟨none, none, none⟩ "echo:{rawBody}:{id}"
      ⟨"\x7b\x7d".toList, "1700000000".toList, "d1".toList⟩ := by
    rw [rendersInOnePass_iff]
    decide
  exact ⟨h, by decide, hboth.2 (by decide) h⟩

/-- A body that spells a placeholder is filled in: the provider's bytes do not come back. -/
theorem echoed_placeholder_filled_in :
    (renderAck (some (declaring ⟨none, none, none⟩ "{rawBody}"))
        ⟨"\x7b\"challenge\":\"\x7bid\x7d\"\x7d".toList, "1700000000".toList, "d1".toList⟩).body =
      some "\x7b\"challenge\":\"d1\"\x7d".toList ∧
    ¬ RendersInOnePass ⟨none, none, none⟩ "{rawBody}"
        ⟨"\x7b\"challenge\":\"\x7bid\x7d\"\x7d".toList, "1700000000".toList, "d1".toList⟩ := by
  rw [rendersInOnePass_iff]
  decide

end SinglePass

end OpenWA.Ingress
