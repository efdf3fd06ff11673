import PreviewControl.Proofs.CreationGuard

/-!
# What a released record leaves behind

Of the children that were ever applied for a record, which ones has the pass removed that lets the
record go? The namespace and the ingress always, because the status names their namespace. The
descriptor only under the name that the number of the pull request gives now: it is not recorded
under which number it was applied.
-/
namespace PreviewControl

open Reconcile Pass

namespace ResourceKind

@[simp] theorem ofApiVersion_kind (apiVersion kind : String) :
    (ofApiVersion apiVersion kind).kind = kind := by
  unfold ofApiVersion
  cases splitApiVersion apiVersion
  rfl

/-- The kinds that the operator removes itself. Objects of other kinds go with their namespace. -/
def isTopLevel (k : ResourceKind) : Bool :=
  k == .namespace || k == .ingress || k == .applicationSet

theorem namespace_ne_applicationSet : ResourceKind.namespace ≠ .applicationSet := by
  intro h
  have hk := congrArg ResourceKind.kind h
  simp [ResourceKind.namespace, applicationSet] at hk

theorem ingress_ne_applicationSet : ingress ≠ applicationSet := by
  intro h
  have hk := congrArg ResourceKind.kind h
  simp [ingress, applicationSet] at hk

theorem resourceQuota_not_isTopLevel : resourceQuota.isTopLevel = false := by decide

theorem networkPolicy_not_isTopLevel : networkPolicy.isTopLevel = false := by decide

end ResourceKind

namespace Child

variable {env : Environment} {target : Address} {t : List Deed}

theorem Cleared.looks (h : Cleared env target t) :
    ∃ answer, .call (.getObject target) answer ∈ t := by
  cases h with
  | absent | foreign | deleted => exact ⟨_, List.mem_cons_self ..⟩

theorem Cleared.looks_only (h : Cleared env target t) {other : Address}
    {answer : Except Failure (Option StoredObject)}
    (hm : .call (.getObject other) answer ∈ t) : other = target := by
  cases h with
  | absent | foreign =>
    injection List.mem_singleton.1 hm with hc
    injection hc
  | deleted =>
    rcases List.mem_cons.1 hm with hm | hm
    · injection hm with hc
      injection hc
    · cases List.mem_singleton.1 hm

/-- Of all that is applied for a record, the namespace, the ingress and the descriptor are of the
kinds that are removed one by one. -/
theorem target_of_part {config : Config} {ns : String} {m : Manifest}
    (part : m ∈ parts config env ns) (top : m.target.kind.isTopLevel = true) :
    m.target = namespaceAddress ns ∨ m.target = ingressAddress ns ∨
      m.target = descriptorAddress env.spec.prNumber config := by
  have quota := ResourceKind.resourceQuota_not_isTopLevel
  have policy := ResourceKind.networkPolicy_not_isTopLevel
  unfold parts at part
  rcases List.mem_append.1 part with part | part
  · rcases List.mem_append.1 part with part | part
    · simp only [namespaceParts, List.mem_cons, List.not_mem_nil, or_false] at part
      rcases part with rfl | rfl | rfl | rfl | rfl
      · exact .inl rfl
      · rw [quota] at top
        cases top
      · rw [policyAddress, policy] at top
        cases top
      · rw [policyAddress, policy] at top
        cases top
      · rw [policyAddress, policy] at top
        cases top
    · obtain ⟨object, _, rfl⟩ := Option.map_eq_some_iff.1 (Option.mem_toList.1 part)
      exact .inr (.inl rfl)
  · rw [List.mem_singleton.1 part]
    exact .inr (.inr rfl)

end Child

/-- In this pass the object at an address was deleted, or read as absent or as another record's. -/
def Episode.Clears (e : Episode) (env : Environment) (target : Address) : Prop :=
  ∃ t u v, e.trace = t ++ (u ++ v) ∧ Child.Cleared env target u

/-- An object that the pass has applied, of a kind that is removed by itself. -/
def Episode.Applied (e : Episode) (m : Manifest) : Prop :=
  (∃ answer, .call (.apply m) answer ∈ e.trace) ∧ m.target.kind.isTopLevel = true

namespace World

variable {config : Config} {notice : Metadata} {now : Instant} {t : List Deed}
  {latest : Environment}

/-- The pass that lets a record go looks at three objects and clears them all. -/
theorem clears_iff {e : Episode} {env : Environment}
    (h : LetGo e.config e.notice e.now e.trace latest) (read : e.Read env) (target : Address) :
    e.Clears env target ↔ target = Child.descriptorAddress env.spec.prNumber e.config ∨
      target = Child.ingressAddress env.childNamespace ∨
      target = Child.namespaceAddress env.childNamespace := by
  generalize ht : e.trace = t at h
  cases h with
  | @mk ns env' _ mark descriptor ingress space place _ _ marked first second third =>
    have hr : e.Read env' := ⟨ns, _, place, ht⟩
    obtain rfl := Episode.read_unique read hr
    constructor
    · rintro ⟨a, u, b, hu, cleared⟩
      obtain ⟨answer, hm⟩ := cleared.looks
      have hm : .call (.getObject target) answer ∈ e.trace := by
        rw [hu]
        exact List.mem_append_right _ (List.mem_append_left _ hm)
      rw [ht] at hm
      rcases List.mem_cons.1 hm with hm | later
      · cases hm
      rcases List.mem_append.1 later with early | later
      · cases marked with
        | already => exact absurd early List.not_mem_nil
        | written | unwritten => cases List.mem_singleton.1 early
      rcases List.mem_append.1 later with at₁ | later
      · exact .inl (first.looks_only at₁)
      rcases List.mem_append.1 later with at₂ | at₃
      · exact .inr (.inl (second.looks_only at₂))
      · exact .inr (.inr (third.looks_only at₃))
    · rintro (rfl | rfl | rfl)
      · refine ⟨Reconcile.read e.notice ns env :: mark, descriptor, ingress ++ space, ?_, first⟩
        rw [ht, List.cons_append]
      · refine ⟨Reconcile.read e.notice ns env :: (mark ++ descriptor), ingress, space, ?_, second⟩
        rw [ht, List.cons_append, List.append_assoc]
      · refine ⟨Reconcile.read e.notice ns env :: (mark ++ (descriptor ++ ingress)), space, [], ?_,
          third⟩
        rw [ht, List.cons_append, List.append_assoc, List.append_assoc, List.append_nil]

variable {w : World} {k : RecordKey} {e : Episode} {older : List Episode}

/-- What was put into a namespace for the record is looked for in this namespace when the record is
let go. -/
theorem childNamespace_of_into (h : Custody k (w.store.record? k) (e :: older)) {f : Episode}
    {env read : Environment} {space : String}
    (letGo : LetGo e.config e.notice e.now e.trace latest) (hr : e.Read env)
    (hm : f ∈ e :: older) (hf : f.Read read) (same : read.metadata.uid = env.metadata.uid)
    (into : f.Into read space) : env.childNamespace = space := by
  obtain ⟨ns, env', u, place, deleting, held, ht, hc⟩ := letGo.clearing
  have hr' : e.Read env' := ⟨ns, u, place, ht⟩
  obtain rfl := Episode.read_unique hr hr'
  have hl : ¬e.LetsGo := by
    rintro ⟨latest', answer, hg⟩
    rw [ht] at hg
    rcases List.mem_cons.1 hg with hg | hg
    · cases hg
    · cases hc _ hg
  obtain ⟨stored, there, hu, _, hn⟩ := h.current e older env rfl hr held hl
  have noted := h.noted f hm read space hf into stored there (hu.trans same.symm)
  rw [hn (.inr deleting)] at noted
  rw [Environment.childNamespace_eq, noted]
  rfl

/-- When a record is about to be let go, a child that was ever applied for it has been removed in
this pass, or found absent or another record's, except for a descriptor that was applied under
another number than the record has now. -/
theorem left_behind_iff (h : w.Reachable) (newest : w.passes k = e :: older)
    (asks : e.pass.Asks e.trace (.removeFinalizer latest))
    (fixed : ∀ f ∈ w.passes k, f.config = e.config) :
    ∃ env, e.Read env ∧ ∀ f ∈ w.passes k, ∀ read m, f.Read read →
      read.metadata.uid = env.metadata.uid → f.Applied m →
      (e.Clears env m.target ↔ (m.target.kind = .applicationSet →
        m.target.name = Child.applicationSetName env.spec.prNumber)) := by
  have custody := h.custody k
  rw [newest] at custody fixed ⊢
  have letGo := letGo_of_asks asks
  obtain ⟨ns, env, u, place, _, _, ht, _⟩ := letGo.clearing
  have hr : e.Read env := ⟨ns, u, place, ht⟩
  refine ⟨env, hr, ?_⟩
  rintro f hm read m hf same ⟨⟨answer, applied⟩, top⟩
  have sound := custody.sound f hm
  obtain ⟨a, b, hab⟩ := List.append_of_mem applied
  obtain ⟨rest, leads⟩ := sound.leads
  rw [hab] at leads
  obtain ⟨read', current, space, hf', _, _, _, into, _, part⟩ := sound.apply hab leads.asks
  obtain rfl := Episode.read_unique hf hf'
  have hspace := childNamespace_of_into custody letGo hr hm hf same into
  rw [fixed f hm] at part
  rw [clears_iff letGo hr, hspace]
  rcases Child.target_of_part part top with ht | ht | ht
  · rw [ht]
    refine ⟨fun _ hk => ?_, fun _ => .inr (.inr rfl)⟩
    exact absurd hk ResourceKind.namespace_ne_applicationSet
  · rw [ht]
    refine ⟨fun _ hk => ?_, fun _ => .inr (.inl rfl)⟩
    exact absurd hk ResourceKind.ingress_ne_applicationSet
  · rw [ht]
    constructor
    · rintro (hd | hd | hd) _
      · exact congrArg Address.name hd
      · exact absurd (congrArg Address.kind hd).symm ResourceKind.ingress_ne_applicationSet
      · exact absurd (congrArg Address.kind hd).symm ResourceKind.namespace_ne_applicationSet
    · intro hn
      exact .inl (congrArg (Address.mk .applicationSet · (some e.config.gitopsNamespace)) (hn rfl))

/-! ## A descriptor that is left behind -/

/-- The record after its number has been edited and its deletion requested. -/
def departing : Environment :=
  Store.bump { shop 6 with
    metadata := { (shop 6).metadata with deletionTimestamp := some default } }

/-- The cluster with the descriptor of the former number, and with this record. -/
def edited : World :=
  { placed with store := (placed.store.putRecord shopKey (shop 6)).deleteRecord shopKey }

theorem record?_placed : placed.store.record? shopKey = some (shop 5) :=
  (record?_opening shopKey).trans (if_pos rfl)

theorem edit_shop : Edit (shop 5) (shop 6) := ⟨rfl, rfl, fun h => h, rfl⟩

theorem reachable_edited : edited.Reachable := by
  have hs := reachable_placed.step (.edit record?_placed edit_shop)
  exact hs.step (.delete shopKey)

theorem record?_edited : edited.store.record? shopKey = some departing := by
  have hs : (placed.store.putRecord shopKey (shop 6)).record? shopKey = some (shop 6) := by
    rw [Store.record?_putRecord, if_pos rfl]
  show ((placed.store.putRecord shopKey (shop 6)).deleteRecord shopKey).record? shopKey = _
  rw [Store.deleteRecord, hs]
  exact (Store.record?_revise _ _ _ _).trans (if_pos rfl)

theorem object?_edited (text : String) : edited.store.object? text =
    if text = (shopDescriptor 5).target.text then some (shopDescriptor 5).object else none := by
  show ((placed.store.putRecord shopKey (shop 6)).deleteRecord shopKey).object? text = _
  rw [Store.object?_deleteRecord]
  exact lookup_cons_if text ((shopDescriptor 5).target.text, (shopDescriptor 5).object) []

/-- The record cannot be marked, and none of the objects is there that are looked for. -/
def departed : List Deed :=
  [Reconcile.read (shop 5).metadata "previews" departing,
   .call (.patchStatus departing (departing.known.terminating default)) (.error .client),
   .call (.getObject (Child.descriptorAddress 6 {})) (.ok none),
   .call (.getObject (Child.ingressAddress "pr-5-0a1b2c")) (.ok none),
   .call (.getObject (Child.namespaceAddress "pr-5-0a1b2c")) (.ok none)]

theorem asks_departed : (visit []).pass.Asks departed (.removeFinalizer departing) :=
  asks_of_letGo (.mk rfl rfl (by decide) (.unwritten (by decide)) .absent .absent .absent)

/-- The record is about to be let go. -/
def leaving : World :=
  { edited with passes := Function.update edited.passes shopKey [visit departed, visit applied] }

theorem passes_leaving : leaving.passes shopKey = [visit departed, visit applied] := by
  show Function.update edited.passes shopKey [visit departed, visit applied] shopKey = _
  rw [Function.update_self]

theorem reachable_leaving : leaving.Reachable := by
  have begun : Reachable { edited with
      passes := Function.update edited.passes shopKey [visit [], visit applied] } := by
    have hb := reachable_edited.step (.begin (visit []) rfl)
    have hp : edited.passes (visit []).key = [visit applied] := passes_placed
    rw [hp] at hb
    exact hb
  obtain ⟨next, leads⟩ := asks_departed
  have absent {target : Address} (h : target.text ≠ (shopDescriptor 5).target.text) :
      edited.store.Served (.getObject target) (.ok none) edited.store :=
    .absent ((object?_edited _).trans (if_neg h))
  have gone := begun.go (k := shopKey) (t := departed)
    (Function.update_self shopKey [visit [], visit applied] edited.passes) leads
    (.call (.read record?_edited) (.call (.failed .client) (.call (absent (by decide))
      (.call (absent (by decide)) (.call (absent (by decide)) .nil)))))
  simp only [Function.update_idem] at gone
  exact gone

theorem read_departed : (visit departed).Read departing := ⟨"previews", _, rfl, rfl⟩

theorem read_applied : (visit applied).Read (shop 5) := ⟨"previews", _, rfl, rfl⟩

theorem applied_shopDescriptor : (visit applied).Applied (shopDescriptor 5) :=
  ⟨⟨.ok (), List.mem_append_right _ (List.mem_singleton_self _)⟩, by decide⟩

theorem fixed_leaving : ∀ f ∈ leaving.passes shopKey, f.config = (visit departed).config := by
  intro f hm
  rw [passes_leaving] at hm
  simp only [List.mem_cons, List.not_mem_nil, or_false] at hm
  rcases hm with rfl | rfl <;> rfl

/-- The descriptor that was applied as number 5 is not among the objects that are cleared when the
record is let go as number 6. -/
theorem left_behind_iff_shop : ∃ env, (visit departed).Read env ∧
    ¬(visit departed).Clears env (shopDescriptor 5).target := by
  obtain ⟨env, hr, hall⟩ := left_behind_iff reachable_leaving passes_leaving asks_departed
    fixed_leaving
  obtain rfl := Episode.read_unique hr read_departed
  refine ⟨departing, hr, fun hc => ?_⟩
  have hm : visit applied ∈ leaving.passes shopKey := by
    rw [passes_leaving]
    exact List.mem_cons_of_mem _ (List.mem_singleton_self _)
  have hn := (hall _ hm (shop 5) _ read_applied rfl applied_shopDescriptor).1 hc rfl
  revert hn
  decide

/-- There is a run in which a record is let go while an object that was applied for it is still in
the cluster and has neither been deleted in that pass nor found absent or another record's. -/
theorem orphan_exists : ∃ w : World, w.Reachable ∧ ∃ k e f older latest env read m,
    w.passes k = e :: older ∧ (∀ g ∈ w.passes k, g.config = e.config) ∧
    e.pass.Asks e.trace (.removeFinalizer latest) ∧ e.Read env ∧ f ∈ older ∧ f.Read read ∧
    read.metadata.uid = env.metadata.uid ∧ f.Applied m ∧
    w.store.object? m.target.text = some m.object ∧ ¬e.Clears env m.target := by
  refine ⟨leaving, reachable_leaving, shopKey, visit departed, visit applied, [visit applied],
    departing, departing, shop 5, shopDescriptor 5, passes_leaving, fixed_leaving, asks_departed,
    read_departed, List.mem_singleton_self _, read_applied, rfl, applied_shopDescriptor, ?_, ?_⟩
  · exact (object?_edited _).trans (if_pos rfl)
  · have letGo := letGo_of_asks asks_departed
    rw [clears_iff (e := visit departed) letGo read_departed]
    decide

end World
end PreviewControl
