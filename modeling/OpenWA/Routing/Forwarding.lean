import OpenWA.Routing.OneRun
import OpenWA.Ssrf.Reading

/-!
This module proves where forwarded requests go and what they carry, and that the owner sees the client
address the forwarding node saw.
-/

namespace OpenWA.Routing

open Js Net

section Request

theorem lookup_filterMap_pair (headers : Headers) (name : String) (names : List String) :
    (names.filterMap fun n => (headers.lookup n).map (n, ·)).lookup name =
      if name ∈ names then headers.lookup name else none := by
  induction names with
  | nil => rfl
  | cons n names ih =>
    by_cases heq : name = n
    . subst heq
      cases hlookup : headers.lookup name with
      | none =>
        rw [List.filterMap_cons_none (by simp [hlookup]), ih]
        simp [hlookup]
      | some value =>
        rw [List.filterMap_cons_some (b := (name, value)) (by simp [hlookup])]
        simp
    . have hmem : name ∈ n :: names ↔ name ∈ names := by simp [heq]
      cases hlookup : headers.lookup n with
      | none =>
        rw [List.filterMap_cons_none (by simp [hlookup]), ih]
        simp [hmem]
      | some value =>
        rw [List.filterMap_cons_some (b := (n, value)) (by simp [hlookup])]
        have hbeq : (name == n) = false := by simp [heq]
        simp only [List.lookup_cons, hbeq, ih, hmem]

/-- A header that is carried over keeps its value; apart from two of its own the hop adds none. -/
theorem lookup_forwardHeaders (arrival : Arrival) (headers : Headers) {name : String}
    (hmarker : name ≠ FORWARDED_HEADER) (hchain : name ≠ "x-forwarded-for") :
    (forwardHeaders arrival headers).lookup name =
      if name ∈ FORWARDED_REQUEST_HEADERS then headers.lookup name else none := by
  have hmarker' : (name == FORWARDED_HEADER) = false := by simpa using hmarker
  have hchain' : (name == "x-forwarded-for") = false := by simpa using hchain
  have hown : (((forwardedFor arrival headers).map ("x-forwarded-for", ·)).toList).lookup name = none := by
    cases forwardedFor arrival headers with
    | none => rfl
    | some chain => simp [List.lookup_cons, hchain']
  simp only [forwardHeaders, List.cons_append, List.lookup_cons, hmarker', List.lookup_append,
    lookup_filterMap_pair, hown, Option.or_none]

theorem lookup_chain_forwardHeaders (arrival : Arrival) (headers : Headers) :
    (forwardHeaders arrival headers).lookup "x-forwarded-for" = forwardedFor arrival headers := by
  have hmarker : ("x-forwarded-for" == FORWARDED_HEADER) = false := by decide
  have hcarried : "x-forwarded-for" ∉ FORWARDED_REQUEST_HEADERS := by decide
  simp only [forwardHeaders, List.cons_append, List.lookup_cons, hmarker, List.lookup_append,
    lookup_filterMap_pair, hcarried, if_false, Option.none_or]
  cases forwardedFor arrival headers <;> simp

/-- The request target of the client decides the path and the query, never the origin. -/
theorem origin_of_forwardTarget {api : UrlApi} {originalUrl ownerNodeUrl : Text} {target : Url}
    (h : forwardTarget api originalUrl ownerNodeUrl = some target) :
    ∃ base, api.parse ownerNodeUrl = some base ∧ target.origin = base.origin := by
  unfold forwardTarget at h
  split at h
  . contradiction
  . next base hbase =>
    split at h
    . contradiction
    . cases h
      exact ⟨base, hbase, rfl⟩

end Request

section Runs

variable {isUUID : Text → Bool} {api : UrlApi} {init s s' : Cluster}

/-- The exchange is what some node made of `parent` for an owner whose URL was stored. -/
def Cluster.Forwarded (api : UrlApi) (s : Cluster) (parent : Request) (x : Exchange) : Prop :=
  ∃ (arrival : Arrival) (ownerNodeUrl : Text) (target : Url),
    (∃ table ∈ s.tables, ∃ (sessionId : Text) (owner : Owner),
      table sessionId = some owner ∧ owner.nodeUrl = some ownerNodeUrl) ∧
    forwardTarget api parent.originalUrl ownerNodeUrl = some target ∧ x.url = target ∧
    x.request = forwardRequest arrival parent target

structure Cluster.Routed (api : UrlApi) (s : Cluster) : Prop where
  recorded : s.sessions ∈ s.tables
  forwarded : ∀ k x, s.exchanges k.next = some x →
    ∃ parent, s.exchanges k = some parent ∧ s.Forwarded api parent.request x

theorem Cluster.Forwarded.mono {parent : Request} {x : Exchange} (h : s.Forwarded api parent x)
    (hle : ∀ table ∈ s.tables, table ∈ s'.tables) : s'.Forwarded api parent x := by
  rcases h with ⟨arrival, url, target, ⟨table, htable, hrow⟩, hrest⟩
  exact ⟨arrival, url, target, ⟨table, hle table htable, hrow⟩, hrest⟩

namespace Cluster.Routed

/-- An exchange that is already there moves on to another stage. -/
theorem advance (hr : s.Routed api) {k : Key} {x : Exchange} (stage : Stage)
    (hk : s.exchanges k = some x) : (s.put k { x with stage := stage }).Routed api where
  recorded := hr.recorded
  forwarded k' x' hk' := by
    rw [exchanges_put] at hk'
    have hold : ∃ parent, s.exchanges k' = some parent ∧ s.Forwarded api parent.request x' := by
      split at hk'
      . next heq =>
        cases hk'
        exact hr.forwarded k' x (heq ▸ hk)
      . exact hr.forwarded k' x' hk'
    rcases hold with ⟨parent, hparent, hforwarded⟩
    rw [exchanges_put]
    split
    . next heq =>
      subst heq
      rw [hk, Option.some.injEq] at hparent
      exact ⟨_, rfl, hparent ▸ hforwarded⟩
    . exact ⟨parent, hparent, hforwarded⟩

/-- An exchange is new and has no parent, or is what a node made of the exchange before it. -/
theorem add (hr : s.Routed api) {k : Key} {x : Exchange} (hfresh : s.exchanges k = none)
    (hnew : k.hop = 0 ∨ ∃ k' parent, k = k'.next ∧ s.exchanges k' = some parent ∧
      s.Forwarded api parent.request x) : (s.put k x).Routed api where
  recorded := hr.recorded
  forwarded k' x' hk' := by
    have hold : ∃ parent, s.exchanges k' = some parent ∧ s.Forwarded api parent.request x' := by
      rw [exchanges_put] at hk'
      split at hk'
      . next heq =>
        cases hk'
        rcases hnew with hzero | ⟨k₀, parent, hnext, hparent, hforwarded⟩
        . simp [← heq, Key.next] at hzero
        . cases Key.next_inj (heq.trans hnext)
          exact ⟨parent, hparent, hforwarded⟩
      . exact hr.forwarded k' x' hk'
    rcases hold with ⟨parent, hparent, hforwarded⟩
    rw [exchanges_put]
    split
    . next heq => simp [heq, hfresh] at hparent
    . exact ⟨parent, hparent, hforwarded⟩

theorem step (hr : s.Routed api) (hs : s.Sound) (h : Cluster.Change api s s') : s'.Routed api := by
  cases h with
  | environment rows tables now hle hrows =>
    refine ⟨?_, ?_⟩
    . rcases hrows with rfl | hmem
      . exact hle _ hr.recorded
      . exact hmem
    . intro k x hk
      rcases hr.forwarded k x hk with ⟨parent, hparent, hforwarded⟩
      exact ⟨parent, hparent, hforwarded.mono hle⟩
  | advance k x stage hk => exact hr.advance stage hk
  | forward k x arrival ownerNodeId ownerNodeUrl target hk hsent hunmarked hmarked howner htarget =>
    refine (hr.advance (.relaying ownerNodeId arrival.proxyTimeoutMs) hk).add ?_ ?_
    . rw [exchanges_put, if_neg (Key.next_ne k)]
      exact hs.no_child_of_not_passed hk (by simp [hsent, Stage.Passed])
    . refine .inr ⟨k, { x with stage := .relaying ownerNodeId arrival.proxyTimeoutMs }, rfl, ?_, ?_⟩
      . rw [exchanges_put, if_pos rfl]
      . exact ⟨arrival, ownerNodeUrl, target, ⟨s.sessions, hr.recorded, howner⟩, htarget, rfl, rfl⟩
  | undeliver k x child ownerNodeId timeoutMs response hk hchild =>
    refine (hr.advance (.turned response) hk).advance .lost ?_
    rw [exchanges_put, if_neg (Key.next_ne k)]
    exact hchild
  | call url request retry =>
    have hadded : Cluster.Routed api { s with calls := s.calls ++ [⟨url, request, retry, .waiting 0⟩] } :=
      ⟨hr.recorded, hr.forwarded⟩
    refine hadded.add ?_ (.inl rfl)
    cases hk : s.exchanges ⟨s.calls.length, 0, 0⟩ with
    | none => rfl
    | some x =>
      rcases hs.started _ x hk with ⟨call, hc, -⟩
      simp at hc
  | settle => exact ⟨hr.recorded, hr.forwarded⟩
  | resume c call attempt hc hphase =>
    have hset : Cluster.Routed api
        { s with calls := s.calls.set c { call with phase := .waiting (attempt + 1) } } :=
      ⟨hr.recorded, hr.forwarded⟩
    refine hset.add ?_ (.inl rfl)
    cases hk : s.exchanges ⟨c, attempt + 1, 0⟩ with
    | none => rfl
    | some x =>
      rcases hs.started _ x hk with ⟨call', hc', hle⟩
      rw [hc, Option.some.injEq] at hc'
      subst hc'
      simp [hphase] at hle
  | cancel => exact ⟨hr.recorded, hr.forwarded⟩

end Cluster.Routed

namespace Cluster

theorem routed_of_reach (hidle : init.Idle) (hrecorded : init.sessions ∈ init.tables)
    (h : Cluster.Reach isUUID api init s) : s.Routed api := by
  induction h with
  | init => exact ⟨hrecorded, fun k x hk => by simp [hidle.2 k.next] at hk⟩
  | step e h hok hstep ih => exact ih.step (sound_of_reach hidle h) (change_of_step hok hstep)

end Cluster

end Runs

section ClientAddress

theorem toLower_ne_colon {c : Char} (h : c.isDigit = true) : c.toLower ≠ ':' := by
  simp only [Char.isDigit, Bool.and_eq_true, decide_eq_true_eq] at h
  unfold Char.toLower
  split
  . next hupper => exact absurd (UInt32.le_trans hupper.1 h.2) (by decide)
  . rintro rfl
    exact absurd h.2 (by decide)

theorem normalizeIp_normalizeIp (ip : Text) : normalizeIp (normalizeIp ip) = normalizeIp ip := by
  by_cases h : (ip.take 7).map Char.toLower = "::ffff:".toList ∧ Ssrf.isDottedQuad (ip.drop 7) = true
  . have hfirst : normalizeIp ip = ip.drop 7 := by simp [normalizeIp, h.1, h.2]
    rw [hfirst, normalizeIp, if_neg]
    intro hagain
    simp only [Bool.and_eq_true, decide_eq_true_eq] at hagain
    -- a dotted quad has no colon
    have hcolon : ':' ∈ ((ip.drop 7).take 7).map Char.toLower := by
      rw [hagain.1]
      decide
    rcases List.mem_map.mp hcolon with ⟨c, hc, hlower⟩
    rcases Ssrf.chars_of_isDottedQuad h.2 (List.mem_of_mem_take hc) with rfl | hdigit
    . exact absurd hlower (by decide)
    . exact toLower_ne_colon hdigit hlower
  . have hsame : normalizeIp ip = ip := by
      rw [normalizeIp, if_neg]
      simpa using h
    rw [hsame, hsame]

theorem trim_space_cons (t : Text) : trim (' ' :: t) = trim t := by
  simp [trim, trimStart, isWhiteSpace]

/-- The hops that a chain names. -/
def hopsOf (chain : Text) : List Text :=
  ((chain.splitOn ',').map fun hop => normalizeIp (trim hop)).filter fun hop => !hop.isEmpty

theorem forwardedHops_one {chain : Text} (h : chain ≠ []) :
    forwardedHops (some (.one chain)) = some (hopsOf chain) := by
  cases chain with
  | nil => exact absurd rfl h
  | cons => rfl

section Peer

variable {observed : Text} (hne : observed ≠ []) (hcomma : ',' ∉ observed) (htrim : trim observed = observed)
  (hnormal : normalizeIp observed = observed)

include hne hcomma htrim hnormal

theorem hopsOf_peer : hopsOf observed = [observed] := by
  simp [hopsOf, List.splitOn_eq_singleton hcomma, htrim, hnormal, hne]

theorem hopsOf_append (chain : Text) : hopsOf (chain ++ ", ".toList ++ observed) = hopsOf chain ++ [observed] := by
  have hlast : (' ' :: observed).splitOn ',' = [' ' :: observed] :=
    List.splitOn_eq_singleton (by simp [hcomma])
  have hsplit : (chain ++ ", ".toList ++ observed).splitOn ',' = chain.splitOn ',' ++ [' ' :: observed] := by
    rw [← hlast, ← List.splitOn_append_cons_self]
    simp
  rw [hopsOf, hsplit]
  simp [hopsOf, trim_space_cons, htrim, hnormal, hne]

end Peer

/-- The chain the owner is sent names the hops of the client's chain, and then the peer of this node. -/
theorem forwardedHops_forwardedFor {arrival : Arrival} (headers : Headers)
    (hpeer : observedPeer arrival ≠ []) (hcomma : ',' ∉ observedPeer arrival)
    (htrim : trim (observedPeer arrival) = observedPeer arrival) :
    forwardedHops ((forwardedFor arrival headers).map .one) =
      some ((forwardedHops ((headers.lookup "x-forwarded-for").map .one)).getD [] ++
        [observedPeer arrival]) := by
  have hnormal : normalizeIp (observedPeer arrival) = observedPeer arrival := normalizeIp_normalizeIp _
  have hisEmpty : (observedPeer arrival).isEmpty = false := by simpa using hpeer
  simp only [forwardedFor, hisEmpty, Bool.false_eq_true, if_false]
  split
  . next hnone =>
    rw [hnone, Option.map_some, forwardedHops_one hpeer, hopsOf_peer hpeer hcomma htrim hnormal]
    rfl
  . next hempty =>
    rw [hempty, Option.map_some, forwardedHops_one hpeer, hopsOf_peer hpeer hcomma htrim hnormal]
    rfl
  . next chain hne hchain =>
    have hchain_ne : chain ≠ [] := fun hnil => hne hnil
    rw [hchain, Option.map_some, Option.map_some, forwardedHops_one hchain_ne,
      forwardedHops_one (by simp [hchain_ne]), hopsOf_append hpeer hcomma htrim hnormal]
    rfl

end ClientAddress

end OpenWA.Routing
