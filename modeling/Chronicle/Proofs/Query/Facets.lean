import Chronicle.Proofs.Query.Identifiers
import Chronicle.Proofs.Query.Modification
import Chronicle.Proofs.Store.Consistency
import Chronicle.Query.Standard

/-!
# One question to several facets

A query that asks of a record only what its source has, its identifier and its time stamp, can be
put to the sources and to the messages (`Query.Parallel`). Since the messages of a store come source
by source, the messages that pass are those of the sources that pass, in the same order
(`Tables.selectAll_eq_flatMap`), whatever the time stamps are: sources of one time stamp stay in the
order of writing, each with its messages. So the entities are found in the same order from either
side, and the sources too, but for those without a message (`Tables.facets_agree`).
-/

namespace Chronicle

variable {R : Type}

/-- The record was written for a message of the source. -/
structure EntityRecord.Of {α : Type} (record : EntityRecord α) (source : SourceRecord) : Prop where
  sourceId : record.sourceId = source.sourceId
  sourceTimeStamp : record.sourceTimeStamp = source.sourceTimeStamp

namespace Query

/-! ### Parallel queries -/

/-- Two queries, of sources and of messages, that ask the same of a source and of its messages. -/
structure Parallel (q : Query R .source) (q' : Query R (.entity .message)) : Prop where
  /-- A message passes if its source does. -/
  holds : ∀ (registry : R) {source : SourceRecord} {message : EntityRecord Envelope},
    message.Of source → q'.filter.holds registry message = q.filter.holds registry source
  /-- Messages are in the order of their sources, if they were written in this order. -/
  inOrder : ∀ {a b : SourceRecord} {x y : EntityRecord Envelope}, x.Of a → y.Of b →
    (a.sequence ≤ b.sequence → x.sequence ≤ y.sequence) →
    (compareBy q.keys a b).isLE → (compareBy q'.keys x y).isLE
  skip : q'.skip = q.skip
  take : q'.take = q.take

theorem keys_modify_of_not_reverse {φ : Facet} (q : Query R φ) {m : Modification}
    (hreverse : m.reverse = false) : (q.modify m).keys = q.keys := by
  rw [keys, keys, modify, hreverse]
  rfl

/-- Queries stay parallel when they are modified but not reversed. -/
theorem Parallel.modify {q : Query R .source} {q' : Query R (.entity .message)}
    (h : q.Parallel q') {m : Modification} (hreverse : m.reverse = false) :
    (q.modify m).Parallel (q'.modify m) where
  holds registry _ _ hof := by rw [holds_modify, holds_modify, h.holds registry hof]
  inOrder := by
    rw [keys_modify_of_not_reverse q hreverse, keys_modify_of_not_reverse q' hreverse]
    exact h.inOrder
  skip := congrArg (m.skip.or ·) h.skip
  take := congrArg (m.take.or ·) h.take

/-- A record was written in a range of time if its source was. -/
theorem holds_timeStampRange {φ : Facet} (least greatest : Option TimeStamp)
    (skip take : Option Nat) (registry : R) (record : φ.Record) :
    (timeStampRange least greatest skip take φ).filter.holds registry record =
      (least.all (·.le (Facet.sourceTimeStamp record)) &&
        greatest.all ((Facet.sourceTimeStamp record).le ·)) := by
  cases least <;> cases greatest <;>
    simp [timeStampRange, Filter.holds, Filter.allHold, Test.holds]

/-- The standard queries that ask of a record only what its source has. -/
inductive AboutSources : ((φ : Facet) → Query R φ) → Prop where
  | timeStampRange (least greatest : Option TimeStamp) (skip take : Option Nat) :
    AboutSources (timeStampRange least greatest skip take)
  | ofSource (id : Identifier) : AboutSources (ofSource id none)

theorem AboutSources.parallel {q : (φ : Facet) → Query R φ} (h : AboutSources q) :
    (q .source).Parallel (q (.entity .message)) := by
  rcases h with ⟨least, greatest, skip, take⟩ | id
  case timeStampRange =>
    constructor
    case holds =>
      intro registry source message hof
      rw [holds_timeStampRange, holds_timeStampRange]
      show (least.all (·.le message.sourceTimeStamp) && greatest.all (message.sourceTimeStamp.le ·))
        = _
      rw [hof.sourceTimeStamp]
      rfl
    case inOrder =>
      intro a b x y hx hy hsequence hle
      change ((compare a.sourceTimeStamp b.sourceTimeStamp).then
        (compare a.sequence b.sequence)).isLE at hle
      show ((compare x.sourceTimeStamp y.sourceTimeStamp).then
        (compare x.sequence y.sequence)).isLE
      rw [Ordering.isLE_then_iff_and, Nat.isLE_compare] at hle ⊢
      rw [hx.sourceTimeStamp, hy.sourceTimeStamp]
      exact hle.imp_right (Or.imp_right hsequence)
    case skip => rfl
    case take => rfl
  case ofSource =>
    constructor
    case holds =>
      intro registry source message hof
      show [id].contains message.sourceId = [id].contains source.sourceId
      rw [hof.sourceId]
    case inOrder =>
      intro a b x y _ _ hsequence hle
      exact Nat.isLE_compare.2 (hsequence (Nat.isLE_compare.1 hle))
    case skip => rfl
    case take => rfl

end Query

/-- A filter that passes or fails every group as one leaves the groups that pass. -/
theorem filter_flatMap_of_forall {α β : Type} {items : List α} {group : α → List β} {p : α → Bool}
    {p' : β → Bool} (h : ∀ a ∈ items, ∀ b ∈ group a, p' b = p a) :
    (items.flatMap group).filter p' = (items.filter p).flatMap group := by
  induction items with
  | nil => rfl
  | cons a items ih =>
    rw [List.forall_mem_cons] at h
    rw [List.flatMap_cons, List.filter_append, ih h.2, List.filter_congr h.1, List.filter_cons]
    split
    case isTrue hpass => simp [hpass]
    case isFalse hfail => simp [hfail]

namespace Tables

variable {t : Tables} {registry : R}

/-! ### Messages in the order of their sources -/

namespace Batched

theorem of_source (h : t.Batched) {source : SourceRecord} (hsource : source ∈ t.sources)
    {message : EntityRecord Envelope} (hmessage : message ∈ t.messagesOf source.sourceId) :
    message.Of source where
  sourceId := by simpa using (List.mem_filter.1 hmessage).2
  sourceTimeStamp := h.timeStamps source hsource message hmessage

theorem mem_messages_iff (h : t.Batched) {message : EntityRecord Envelope} :
    message ∈ t.messages ↔
      ∃ source ∈ t.sources, message ∈ t.messagesOf source.sourceId := by
  conv_lhs => rw [h.messages]
  exact List.mem_flatMap

/-- A source that was written ahead of another has its messages ahead of the messages of that. -/
theorem sequence_lt (h : t.Batched) {a b : SourceRecord} (ha : a ∈ t.sources)
    (hb : b ∈ t.sources) (hlt : a.sequence < b.sequence) {x y : EntityRecord Envelope}
    (hx : x ∈ t.messagesOf a.sourceId) (hy : y ∈ t.messagesOf b.sourceId) :
    x.sequence < y.sequence := by
  have horder := List.pairwise_iff_getElem.1
    (List.pairwise_flatMap.1 (List.pairwise_append.1 h.order).1).2
  obtain ⟨i, hi, rfl⟩ := List.getElem_of_mem ha
  obtain ⟨j, hj, rfl⟩ := List.getElem_of_mem hb
  rcases Nat.lt_trichotomy i j with hij | rfl | hji
  · exact horder i j hi hj hij _ (List.mem_cons_of_mem _ (List.mem_map_of_mem hx)) _
      (List.mem_cons_of_mem _ (List.mem_map_of_mem hy))
  · exact absurd hlt (Nat.lt_irrefl _)
  · exact absurd (horder j i hj hi hji _ (List.mem_cons_self ..) _ (List.mem_cons_self ..))
      (Nat.lt_asymm hlt)

end Batched

section Parallel

variable {q : Query R .source} {q' : Query R (.entity .message)}

/-- Source by source, messages are in the order that a parallel query wants: within a source because
they were written in this order, and from one source to the next because the sources are. -/
theorem pairwise_flatMap_selectAll (h : Reachable t) (hq : q.Parallel q') :
    ((q.selectAll registry t.sources).flatMap fun source ↦
      t.messagesOf source.sourceId).Pairwise fun x y ↦ (compareBy q'.keys x y).isLE := by
  have hof : ∀ {source}, source ∈ q.selectAll registry t.sources →
      ∀ {message}, message ∈ t.messagesOf source.sourceId → message.Of source :=
    fun hsource ↦ h.batched.of_source (mem_selectAll.1 hsource).1
  refine List.pairwise_flatMap.2 ⟨fun source hsource ↦ ?_, ?_⟩
  · have hascending : (t.messagesOf source.sourceId).Pairwise (·.sequence < ·.sequence) :=
      (List.pairwise_map.1 (List.pairwise_append.1 (h.sequenced (.entity .message))).1).sublist
        List.filter_sublist
    exact hascending.imp_of_mem fun hx hy hlt ↦
      hq.inOrder (hof hsource hx) (hof hsource hy) (fun _ ↦ hlt.le) (isLE_compareBy_self q.keys _)
  · have hapart : Distinguished (q.selectAll registry t.sources) :=
      (h.sequenced.distinguished .source).select
    refine (pairwise_select.and hapart).imp_of_mem fun {a b} ha hb hab x hx y hy ↦ ?_
    refine hq.inOrder (hof ha hx) (hof hb hy) (fun hle ↦ ?_) hab.1
    exact (h.batched.sequence_lt (mem_selectAll.1 ha).1 (mem_selectAll.1 hb).1
      (lt_of_le_of_ne hle hab.2) hx hy).le

/-- Of the messages of a store, a query selects those of the sources that a parallel one selects,
one source after the other. -/
theorem selectAll_eq_flatMap (h : Reachable t) (hq : q.Parallel q') :
    q'.selectAll registry t.messages =
      (q.selectAll registry t.sources).flatMap fun source ↦ t.messagesOf source.sourceId := by
  have hfilter : t.messages.filter (q'.filter.holds registry) =
      (t.sources.filter (q.filter.holds registry)).flatMap fun source ↦
        t.messagesOf source.sourceId := by
    conv_lhs => rw [h.batched.messages]
    exact filter_flatMap_of_forall fun source hsource message hmessage ↦
      hq.holds registry (h.batched.of_source hsource hmessage)
  refine select_eq_of_perm (h.sequenced.distinguished (.entity .message)) ?_
    (pairwise_flatMap_selectAll h hq)
  show (List.flatMap _ _).Perm (t.messages.filter (q'.filter.holds registry))
  rw [hfilter]
  exact select_perm.flatMap_right _

/-- Parallel queries find the same entities, in the same order. -/
theorem selectEntityIds_eq (h : Reachable t) (hq : q.Parallel q') :
    t.selectEntityIds registry q' = t.selectEntityIds registry q := by
  have hids : (q'.selectAll registry t.messages).flatMap (Facet.entityIds (φ := .entity .message)) =
      (q.selectAll registry t.sources).flatMap (Facet.entityIds (φ := .source)) := by
    rw [selectAll_eq_flatMap h hq, List.flatMap_assoc]
    refine List.flatMap_congr fun source hsource ↦ ?_
    show _ = source.entityPointers.map (·.id)
    rw [h.batched.pointers source (mem_selectAll.1 hsource).1, List.map_map]
    exact List.flatMap_pure_eq_map _ _
  show q'.page (distinct ((q'.selectAll registry t.messages).flatMap Facet.entityIds)) = _
  rw [hids, Query.page, hq.skip, hq.take]
  rfl

/-- A parallel query finds the same sources through messages, but for those that have none. -/
theorem selectSourceIds_eq_filter (h : Reachable t) (hq : q.Parallel q') (hskip : q.skip = none)
    (htake : q.take = none) :
    t.selectSourceIds registry q' =
      (t.selectSourceIds registry q).filter fun id ↦ !(t.messagesOf id).isEmpty := by
  have hnodup := nodup_map_sourceId h registry q
  have hgroups : (q'.selectAll registry t.messages).map (·.sourceId) =
      (q.selectAll registry t.sources).flatMap fun source ↦
        (t.messagesOf source.sourceId).map (·.sourceId) := by
    rw [selectAll_eq_flatMap h hq, List.map_flatMap]
  have hown : ∀ source ∈ q.selectAll registry t.sources,
      ∀ id ∈ (t.messagesOf source.sourceId).map (·.sourceId), id = source.sourceId := by
    intro source hsource id hid
    obtain ⟨message, hmessage, rfl⟩ := List.mem_map.1 hid
    exact (h.batched.of_source (mem_selectAll.1 hsource).1 hmessage).sourceId
  have hgrouped := distinct_flatMap hown hnodup
  rw [← hgroups] at hgrouped
  rw [selectSourceIds, selectSourceIds, q.page_eq_self hskip htake,
    q'.page_eq_self (hq.skip.trans hskip) (hq.take.trans htake)]
  show distinct ((q'.selectAll registry t.messages).map (·.sourceId)) =
    (distinct ((q.selectAll registry t.sources).map (·.sourceId))).filter _
  rw [hgrouped, distinct_of_nodup hnodup, List.filter_map]
  simp only [Function.comp_def, List.isEmpty_map]

end Parallel

/-! ### Other facets of one question -/

/-- A source has a message for one of some entities if a message for one of these is its. -/
theorem mem_selectSourceIds_ofEntities_iff (h : Reachable t) (ids : List Identifier)
    (id : Identifier) :
    id ∈ t.selectSourceIds registry (Query.ofEntities ids none none .source) ↔
      id ∈ t.selectSourceIds registry (Query.ofEntities ids none none (.entity .message)) := by
  rw [mem_selectSourceIds rfl rfl, mem_selectSourceIds rfl rfl]
  show (∃ source ∈ t.sources, source.entityPointers.any (ids.contains ·.id) ∧ source.sourceId = id)
    ↔ ∃ message ∈ t.messages, ids.contains message.entityId ∧ message.sourceId = id
  constructor
  · rintro ⟨source, hsource, hany, rfl⟩
    rw [h.batched.pointers source hsource, List.any_map, List.any_eq_true] at hany
    obtain ⟨message, hmessage, hid⟩ := hany
    exact ⟨message, (List.mem_filter.1 hmessage).1, hid,
      (h.batched.of_source hsource hmessage).sourceId⟩
  · rintro ⟨message, hmem, hid, rfl⟩
    obtain ⟨source, hsource, hmessage⟩ := h.batched.mem_messages_iff.1 hmem
    refine ⟨source, hsource, ?_, (h.batched.of_source hsource hmessage).sourceId.symm⟩
    rw [h.batched.pointers source hsource, List.any_map, List.any_eq_true]
    exact ⟨message, hmessage, hid⟩

/-- What was written in a range of time is beside a message that was. -/
theorem exists_message_of_timeStampRange (h : Reachable t) (least greatest : Option TimeStamp)
    {kind : Kind} {record : EntityRecord kind.Data} (hrecord : record ∈ t.records (.entity kind))
    (hholds : (Query.timeStampRange least greatest none none (.entity kind)).filter.holds
      registry record) :
    ∃ message ∈ t.messages, record.Beside message ∧
      (Query.timeStampRange least greatest none none (.entity .message)).filter.holds
        registry message := by
  obtain ⟨message, hmessage, hbeside⟩ := h.accompanied kind record hrecord
  refine ⟨message, hmessage, hbeside, ?_⟩
  rw [Query.holds_timeStampRange] at hholds ⊢
  show (least.all (·.le message.sourceTimeStamp) && greatest.all (message.sourceTimeStamp.le ·))
  rw [← hbeside.sourceTimeStamp]
  exact hholds

theorem selectSourceIds_timeStampRange_subset (h : Reachable t)
    (least greatest : Option TimeStamp) (kind : Kind) :
    t.selectSourceIds registry (Query.timeStampRange least greatest none none (.entity kind)) ⊆
      t.selectSourceIds registry
        (Query.timeStampRange least greatest none none (.entity .message)) := by
  intro id hid
  obtain ⟨record, hrecord, hholds, rfl⟩ := (mem_selectSourceIds rfl rfl).1 hid
  obtain ⟨message, hmessage, hbeside, hmholds⟩ :=
    exists_message_of_timeStampRange h least greatest hrecord hholds
  exact (mem_selectSourceIds rfl rfl).2 ⟨message, hmessage, hmholds, hbeside.sourceId.symm⟩

theorem selectEntityIds_timeStampRange_subset (h : Reachable t)
    (least greatest : Option TimeStamp) (kind : Kind) :
    t.selectEntityIds registry (Query.timeStampRange least greatest none none (.entity kind)) ⊆
      t.selectEntityIds registry
        (Query.timeStampRange least greatest none none (.entity .message)) := by
  intro id hid
  obtain ⟨record, hrecord, hholds, hmem⟩ := (mem_selectEntityIds rfl rfl).1 hid
  obtain ⟨message, hmessage, hbeside, hmholds⟩ :=
    exists_message_of_timeStampRange h least greatest hrecord hholds
  refine (mem_selectEntityIds rfl rfl).2 ⟨message, hmessage, hmholds, ?_⟩
  rw [List.mem_singleton.1 hmem, hbeside.entityId]
  exact List.mem_singleton_self _

/-- **Facets agree.** On every store that commits can reach, a query that asks of a record only what
its source has finds the same entities through sources and through messages, in the same order, and
also when it is paged, inverted and paged anew, but not reversed; and without a page it finds the
same sources through messages, less those that have none. Entities lead to the same sources either
way. And what a range of time finds through leases or tags, it finds through messages. -/
theorem facets_agree (h : Reachable t) (registry : R) :
    (∀ q : (φ : Facet) → Query R φ, Query.AboutSources q →
      (∀ ms : List Query.Modification, (Query.Modification.collapse ms).reverse = false →
        t.selectEntityIds registry (ms.foldl Query.modify (q .source)) =
          t.selectEntityIds registry (ms.foldl Query.modify (q (.entity .message)))) ∧
      ((q .source).skip = none → (q .source).take = none →
        t.selectSourceIds registry (q (.entity .message)) =
          (t.selectSourceIds registry (q .source)).filter fun id ↦ !(t.messagesOf id).isEmpty)) ∧
    (∀ (ids : List Identifier) (id : Identifier),
      id ∈ t.selectSourceIds registry (Query.ofEntities ids none none .source) ↔
        id ∈ t.selectSourceIds registry (Query.ofEntities ids none none (.entity .message))) ∧
    ∀ (least greatest : Option TimeStamp) (kind : Kind),
      t.selectSourceIds registry (Query.timeStampRange least greatest none none (.entity kind)) ⊆
        t.selectSourceIds registry
          (Query.timeStampRange least greatest none none (.entity .message)) ∧
      t.selectEntityIds registry (Query.timeStampRange least greatest none none (.entity kind)) ⊆
        t.selectEntityIds registry
          (Query.timeStampRange least greatest none none (.entity .message)) := by
  refine ⟨fun q hq ↦ ⟨fun ms hms ↦ ?_, selectSourceIds_eq_filter h hq.parallel⟩,
    mem_selectSourceIds_ofEntities_iff h, fun least greatest kind ↦
      ⟨selectSourceIds_timeStampRange_subset h least greatest kind,
        selectEntityIds_timeStampRange_subset h least greatest kind⟩⟩
  rw [((q .source).alike_foldl_modify ms).selectEntityIds_eq,
    ((q (.entity .message)).alike_foldl_modify ms).selectEntityIds_eq]
  exact (selectEntityIds_eq h (hq.parallel.modify hms)).symm

section Postdated

open Inventory

/-- A source without messages, dated after those that are written next. -/
def postdating : Source Delta Signature where
  id := .ofNat 9
  timeStamp := ⟨60, 0⟩
  agentSignature := .system
  messages := []

/-- The tables after a source without messages, then one that is dated before it, and then one of
the same date as that. -/
def postdated : Tables :=
  (((Tables.empty.attempt {} postdating).2.attempt {} marking).2.attempt {} handingOver).2

/-- Whenever it was written, oldest first. -/
def ever : (φ : Facet) → Query Registry φ := Query.timeStampRange none none none none

/-- Skip one, and take another. -/
def second : Query.Modification := { skip := some 1, take := some 1 }

theorem facets_agree_postdated :
    Reachable postdated ∧ postdated.sources.length = 3 ∧
      (postdated.messagesOf postdating.id).isEmpty ∧
      Query.AboutSources ever ∧ (Query.Modification.collapse [second]).reverse = false ∧
      postdated.selectEntityIds {} ([second].foldl Query.modify (ever .source)) =
        postdated.selectEntityIds {} ([second].foldl Query.modify (ever (.entity .message))) ∧
      postdated.selectSourceIds {} (ever (.entity .message)) =
        (postdated.selectSourceIds {} (ever .source)).filter
          fun id ↦ !(postdated.messagesOf id).isEmpty := by
  have hreach : Reachable postdated :=
    .commit {} handingOver (.commit {} marking (.commit {} postdating .empty))
  have habout : Query.AboutSources ever := .timeStampRange none none none none
  obtain ⟨hentities, hsources⟩ := (facets_agree (R := Registry) hreach {}).1 ever habout
  exact ⟨hreach, by decide +kernel, by decide +kernel, habout, rfl, hentities [second] rfl,
    hsources rfl rfl⟩

end Postdated

end Tables

end Chronicle
