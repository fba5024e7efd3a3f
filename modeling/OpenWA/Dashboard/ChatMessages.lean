import OpenWA.Js.Text

/-!
This module contains the messages of a thread as the chat page holds them, and how an incoming one is merged into
a list of them.
-/

namespace OpenWA.Dashboard

open Js

inductive DeliveryStatus where
  | pending
  | sent
  | delivered
  | read
  | failed
deriving DecidableEq

structure MessageMedia where
  mimetype : Text
  filename : Option Text
  data : Option Text
  omitted : Option Bool
  sizeBytes : Option Nat
deriving DecidableEq

structure QuotedMessage where
  id : Text
  body : Text
deriving DecidableEq

structure Call where
  video : Bool
  missed : Bool
deriving DecidableEq

structure Button where
  id : Text
  text : Text
deriving DecidableEq

structure Metadata where
  media : Option MessageMedia
  quotedMessage : Option QuotedMessage
  reactions : Option (List (Text × Text))
  call : Option Call
  buttons : Option (List Button)
deriving DecidableEq

/-- `content` stands for the fields that are copied and never read here. -/
structure ChatMessageView (γ : Type) where
  id : Text
  waMessageId : Option Text
  author : Option Text
  status : Option DeliveryStatus
  metadata : Option Metadata
  content : γ
deriving DecidableEq

variable {γ : Type}

def msgKey (m : ChatMessageView γ) : Text := m.waMessageId.getD m.id

def DELIVERY_RANK (status : DeliveryStatus) : Option Nat :=
  match status with
  | .pending => some 0
  | .sent => some 1
  | .delivered => some 2
  | .read => some 3
  | .failed => none

def mergeDeliveryStatus (current incoming : Option DeliveryStatus) : Option DeliveryStatus :=
  match current, incoming with
  | _, none => current
  | none, _ => incoming
  | some .failed, _ => some .failed
  | some status, some .failed => if status = .pending || status = .sent then some .failed else current
  | some status, some status' =>
    match DELIVERY_RANK status', DELIVERY_RANK status with
    | none, _ => current
    | _, none => incoming
    | some rank', some rank => if rank' ≥ rank then incoming else current

/-- A payload is there when its text is not empty. -/
def MessageMedia.hasData (media : MessageMedia) : Bool := media.data.any (!·.isEmpty)

def mergeMedia (existing incoming : Option MessageMedia) : Option MessageMedia :=
  match existing, incoming with
  | _, none => existing
  | none, _ => incoming
  | some media, some media' => if media.hasData && !media'.hasData then existing else incoming

def mergeMessageMetadata (existing incoming : Option Metadata) : Option Metadata :=
  match existing, incoming with
  | _, none => existing
  | none, _ => incoming
  | some existing, some incoming =>
    let merged : Metadata :=
      { media := mergeMedia existing.media incoming.media
        quotedMessage := incoming.quotedMessage.or existing.quotedMessage
        reactions := incoming.reactions.or existing.reactions
        call := incoming.call.or existing.call
        buttons := (incoming.buttons.or existing.buttons).filter (!·.isEmpty) }
    if merged = ⟨none, none, none, none, none⟩ then none else some merged

def MEDIA_PAYLOAD_CACHE_LIMIT : Nat := 100

def hasPayload (m : ChatMessageView γ) : Bool :=
  m.metadata.any fun metadata => metadata.media.any MessageMedia.hasData

def stripPayload (m : ChatMessageView γ) : ChatMessageView γ :=
  { m with metadata := m.metadata.map fun metadata =>
      { metadata with media := metadata.media.map fun media => { media with data := none, omitted := some true } } }

/-- The loop that strips the first `toStrip` payloads. -/
def stripPayloads (toStrip : Nat) (list : List (ChatMessageView γ)) : List (ChatMessageView γ) :=
  match toStrip, list with
  | 0, _ => list
  | _, [] => []
  | toStrip + 1, m :: list =>
    if hasPayload m then stripPayload m :: stripPayloads toStrip list
    else m :: stripPayloads (toStrip + 1) list

def capMediaPayloads (list : List (ChatMessageView γ)) (keep : Nat) : List (ChatMessageView γ) :=
  let payloadCount := list.countP hasPayload
  if payloadCount ≤ keep then list else stripPayloads (payloadCount - keep) list

/-- What replaces an entry with the identity of the incoming one. -/
def mergeMessage (incoming existing : ChatMessageView γ) : ChatMessageView γ :=
  { incoming with
    author := incoming.author.or existing.author
    status := (mergeDeliveryStatus existing.status incoming.status).or incoming.status
    metadata := mergeMessageMetadata existing.metadata incoming.metadata }

def mergeOrAppend (list : List (ChatMessageView γ)) (incoming : ChatMessageView γ) : List (ChatMessageView γ) :=
  match list.findIdx? fun m => msgKey m = msgKey incoming with
  | none => capMediaPayloads (list ++ [incoming]) MEDIA_PAYLOAD_CACHE_LIMIT
  | some idx => capMediaPayloads (list.modify idx (mergeMessage incoming)) MEDIA_PAYLOAD_CACHE_LIMIT

def updateMessageById (list : List (ChatMessageView γ)) (id : Text)
    (patch : ChatMessageView γ → ChatMessageView γ) : List (ChatMessageView γ) :=
  match list.findIdx? fun m => m.id = id with
  | none => list
  | some idx => list.modify idx patch

def removeMessageById (list : List (ChatMessageView γ)) (id : Text) : List (ChatMessageView γ) :=
  if list.any fun m => m.id = id then list.filter fun m => m.id ≠ id else list

section Identity

/-- The two ids of a message. -/
def ids (m : ChatMessageView γ) : Text × Option Text := (m.id, m.waMessageId)

theorem msgKey_eq_of_ids {m m' : ChatMessageView γ} (h : ids m = ids m') : msgKey m = msgKey m' := by
  simp only [ids, Prod.mk.injEq] at h
  rw [msgKey, msgKey, h.1, h.2]

@[simp] theorem ids_stripPayload (m : ChatMessageView γ) : ids (stripPayload m) = ids m := rfl

@[simp] theorem ids_mergeMessage (incoming existing : ChatMessageView γ) :
    ids (mergeMessage incoming existing) = ids incoming := rfl

theorem ids_stripPayloads (toStrip : Nat) (list : List (ChatMessageView γ)) :
    (stripPayloads toStrip list).map ids = list.map ids := by
  fun_induction stripPayloads toStrip list with
  | case1 list => rfl
  | case2 toStrip _ => rfl
  | case3 toStrip m list hpayload ih => rw [List.map_cons, List.map_cons, ih, ids_stripPayload]
  | case4 toStrip m list hpayload ih => rw [List.map_cons, List.map_cons, ih]

@[simp] theorem ids_capMediaPayloads (list : List (ChatMessageView γ)) (keep : Nat) :
    (capMediaPayloads list keep).map ids = list.map ids := by
  unfold capMediaPayloads
  dsimp only
  split
  . rfl
  . exact ids_stripPayloads _ list

theorem map_modify_of_eq {α β : Type} {f : α → α} {g : α → β} {l : List α} {i : Nat}
    (h : ∀ x, l[i]? = some x → g (f x) = g x) : (l.modify i f).map g = l.map g := by
  apply List.ext_getElem?
  intro j
  rw [List.getElem?_map, List.getElem?_map, List.getElem?_modify]
  split
  . next hij =>
    subst hij
    cases hx : l[i]? with
    | none => rfl
    | some x => exact congrArg some (h x hx)
  . rw [id_map']

theorem getElem?_findIdx? {α : Type} {p : α → Bool} {l : List α} {i : Nat} (h : l.findIdx? p = some i) :
    ∃ x, l[i]? = some x ∧ p x = true := by
  rcases List.findIdx?_eq_some_iff_getElem.mp h with ⟨hlt, hp, _⟩
  exact ⟨_, List.getElem?_eq_getElem hlt, hp⟩

theorem keys_capMediaPayloads (list : List (ChatMessageView γ)) (keep : Nat) :
    (capMediaPayloads list keep).map msgKey = list.map msgKey := by
  have hkey : (msgKey : ChatMessageView γ → Text) = (fun p => p.2.getD p.1) ∘ ids := rfl
  rw [hkey, ← List.map_map, ids_capMediaPayloads, List.map_map]

/-- An entry is replaced where its identity is held already, else it is the last one. -/
theorem keys_mergeOrAppend (list : List (ChatMessageView γ)) (incoming : ChatMessageView γ) :
    (mergeOrAppend list incoming).map msgKey =
      if msgKey incoming ∈ list.map msgKey then list.map msgKey else list.map msgKey ++ [msgKey incoming] := by
  unfold mergeOrAppend
  split
  . next hnone =>
    have hnot : msgKey incoming ∉ list.map msgKey := by
      intro hmem
      rcases List.mem_map.mp hmem with ⟨m, hm, hkey⟩
      have hne := List.findIdx?_eq_none_iff.mp hnone m hm
      rw [decide_eq_false_iff_not] at hne
      exact hne hkey
    rw [if_neg hnot, keys_capMediaPayloads, List.map_append, List.map_singleton]
  . next idx hidx =>
    rcases getElem?_findIdx? hidx with ⟨m, hm, hkey⟩
    rw [decide_eq_true_eq] at hkey
    have hmem : msgKey incoming ∈ list.map msgKey :=
      List.mem_map.mpr ⟨m, List.mem_of_getElem? hm, hkey⟩
    rw [if_pos hmem, keys_capMediaPayloads]
    apply map_modify_of_eq
    intro x hx
    rw [hm, Option.some.injEq] at hx
    rw [← hx, hkey, msgKey_eq_of_ids (ids_mergeMessage incoming m)]

/-- What holds of the ids of an incoming message and of every entry holds of every entry afterwards. -/
theorem forall_mergeOrAppend {P : Text × Option Text → Prop} {list : List (ChatMessageView γ)}
    {incoming : ChatMessageView γ} (hincoming : P (ids incoming)) (hlist : ∀ m ∈ list, P (ids m)) :
    ∀ m ∈ mergeOrAppend list incoming, P (ids m) := by
  have hcap : ∀ list' : List (ChatMessageView γ), (∀ m ∈ list', P (ids m)) →
      ∀ m ∈ capMediaPayloads list' MEDIA_PAYLOAD_CACHE_LIMIT, P (ids m) := by
    intro list' hlist' m hm
    have hids := List.mem_map_of_mem (f := ids) hm
    rw [ids_capMediaPayloads] at hids
    rcases List.mem_map.mp hids with ⟨m', hm', heq⟩
    exact heq ▸ hlist' m' hm'
  unfold mergeOrAppend
  split
  . apply hcap
    intro m hm
    rcases List.mem_append.mp hm with hm | hm
    . exact hlist m hm
    . exact List.mem_singleton.mp hm ▸ hincoming
  . apply hcap
    intro m hm
    rcases List.mem_iff_getElem?.mp hm with ⟨j, hj⟩
    rw [List.getElem?_modify] at hj
    split at hj
    . rcases Option.map_eq_some_iff.mp hj with ⟨existing, _, rfl⟩
      exact hincoming
    . rw [id_map'] at hj
      exact hlist m (List.mem_of_getElem? hj)

end Identity

end OpenWA.Dashboard
