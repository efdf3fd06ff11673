import PreviewControl.Proofs.Course
import PreviewControl.Proofs.Rendering
import PreviewControl.Proofs.Steadiness

/-!
# The upkeep of children can be repeated

Every child is kept in objects of its own kinds, so that putting one in place or removing it is no
matter to the others. Each of these passes is steady: the namespace that was put in place is not on
its way out, and an object that was marked as being deleted can still be read.
-/
namespace PreviewControl

open Pass

namespace Child

variable {config : Config} {env : Environment} {ns : String}

/-! ## The objects of a child -/

/-- The kinds of the objects that belong to a child. -/
def objectKinds : Child → List String
  | «namespace» => ["Namespace", "ResourceQuota", "NetworkPolicy"]
  | ingress => ["Ingress"]
  | descriptor => ["ApplicationSet"]

/-- The texts of the objects that belong to a child. -/
def reach (child : Child) : String → Prop := Address.OfKinds child.objectKinds

theorem reach_disjoint {child other : Child} (h : child ≠ other) {text : String}
    (ht : child.reach text) : ¬other.reach text := by
  refine Address.OfKinds.disjoint ?_ ht
  cases child <;> cases other <;> first | exact absurd rfl h | decide

theorem reach_namespace (ns : String) : «namespace».reach (namespaceAddress ns).text :=
  Address.ofKinds_text (by decide) (by decide) _ _

theorem reach_quota (ns : String) :
    «namespace».reach (⟨.resourceQuota, quotaName, some ns⟩ : Address).text :=
  Address.ofKinds_text (by decide) (by decide) _ _

theorem reach_policy (ns name : String) : «namespace».reach (policyAddress ns name).text :=
  Address.ofKinds_text (by decide) (by decide) _ _

theorem reach_ingress (ns : String) : ingress.reach (ingressAddress ns).text :=
  Address.ofKinds_text (by decide) (by decide) _ _

theorem reach_descriptor (pr : UInt32) (config : Config) :
    descriptor.reach (descriptorAddress pr config).text :=
  Address.ofKinds_text (by decide) (by decide) _ _

theorem reach_address (child : Child) : child.reach (child.address config env ns).text := by
  cases child with
  | «namespace» => exact reach_namespace ns
  | ingress => exact reach_ingress ns
  | descriptor => exact reach_descriptor _ config

theorem reach_namespaceParts : ∀ m ∈ namespaceParts config env ns,
    «namespace».reach m.target.text := by
  intro m hm
  simp only [namespaceParts, List.mem_cons, List.not_mem_nil, or_false] at hm
  rcases hm with rfl | rfl | rfl | rfl | rfl
  · exact reach_namespace ns
  · exact reach_quota ns
  · exact reach_policy ns _
  · exact reach_policy ns _
  · exact reach_policy ns _

/-! ## Putting in place, once more -/

variable {reads writes : String → Prop}

theorem steady_applyAll {ms : List Manifest} (h : ∀ m ∈ ms, writes m.target.text) :
    (applyAll ms).Steady (fun _ => False) writes := by
  induction ms with
  | nil => exact steady_done ()
  | cons m ms ih =>
    have hrest := ih fun n hn => h n (List.mem_cons_of_mem m hn)
    have hfirst : (request (.apply m)).Steady (fun _ => False) fun t => t = m.target.text :=
      steady_apply m
    refine (hfirst.bind (fun _ => hrest) (fun _ => False.elim) fun _ => False.elim).mono
      (fun _ ht => ht.elim id id) fun t ht => ?_
    rcases ht with rfl | ht
    · exact h m List.mem_cons_self
    · exact ht

theorem apply_of_miss {m : Manifest} {s : Store} (h : Fault.strike (.apply m) s.faults = none) :
    (request (.apply m)).outcome s = .done () ∧
      (request (.apply m)).after s = s.putObject m.target.text m.object :=
  request_of_miss h rfl

/-- What is applied is found where it was put, or nothing was applied there. -/
theorem object?_applyAll (ms : List Manifest) (s : Store) (text : String) :
    ((applyAll ms).after s).object? text = s.object? text ∨
      ∃ m ∈ ms, m.target.text = text ∧ ((applyAll ms).after s).object? text = some m.object := by
  induction ms generalizing s with
  | nil => exact .inl rfl
  | cons m ms ih =>
    have hcons : applyAll (m :: ms) = (request (.apply m)).bind fun _ => applyAll ms := rfl
    rw [hcons]
    cases hs : Fault.strike (.apply m) s.faults with
    | some hit =>
      obtain ⟨ho, ha⟩ := request_of_hit hs rfl
      rw [after_bind_failed ho, ha]
      exact .inl rfl
    | none =>
      rw [after_bind_done (apply_of_miss hs).1, (apply_of_miss hs).2]
      rcases ih (s.putObject m.target.text m.object) with hsame | ⟨n, hn, ht, hput⟩
      · rw [hsame, Store.object?_putObject]
        by_cases hm : text = m.target.text
        · rw [if_pos hm]
          exact .inr ⟨m, List.mem_cons_self, hm.symm, rfl⟩
        · rw [if_neg hm]
          exact .inl rfl
      · exact .inr ⟨n, List.mem_cons_of_mem m hn, ht, hput⟩

/-- The namespace as it is put in place is not on its way out. -/
theorem read?_namespaceObject (env : Environment) (ns : String) :
    ∃ o, StoredObject.read? (namespaceObject env ns) = some o ∧ o.metadata.isDeleting = false := by
  have hrendered : Rendered env (namespaceObject env ns) := rendered_namespace
  obtain ⟨o, ho, hdeleting, _⟩ := hrendered.read
  exact ⟨o, ho, hdeleting⟩

private theorem text_ne_namespaceAddress {kind : ResourceKind} (hp : kind.Plain)
    (hk : kind.kind ≠ ResourceKind.namespace.kind) (name : String) (space : Option String)
    (ns : String) : (Address.mk kind name space).text ≠ (namespaceAddress ns).text := by
  intro h
  have hn : ResourceKind.namespace.Plain := by decide
  have hkind := Address.kind_of_text (a := ⟨kind, name, space⟩) hp hn h
  exact hk hkind

/-- A namespace that was not on its way out is not when its parts have been applied. -/
private theorem readObject_applyAll {s s' : Store} {read : Option StoredObject}
    (hread : s.readObject (namespaceAddress ns) = .ok read)
    (hopen : read.any (·.metadata.isDeleting) = false)
    (hs : s'.object? (namespaceAddress ns).text =
      ((applyAll (namespaceParts config env ns)).after s).object? (namespaceAddress ns).text) :
    ∃ read', s'.readObject (namespaceAddress ns) = .ok read' ∧
      read'.any (·.metadata.isDeleting) = false := by
  rcases object?_applyAll (namespaceParts config env ns) s (namespaceAddress ns).text
    with hsame | ⟨m, hm, ht, hput⟩
  · refine ⟨read, ?_, hopen⟩
    rw [← hread, Store.readObject, hs, hsame]
    rfl
  · obtain ⟨o, ho, hnot⟩ := read?_namespaceObject env ns
    have hobject : m.object = namespaceObject env ns := by
      simp only [namespaceParts, List.mem_cons, List.not_mem_nil, or_false] at hm
      rcases hm with rfl | rfl | rfl | rfl | rfl
      · rfl
      · exact absurd ht (text_ne_namespaceAddress (by decide) (by decide) _ _ ns)
      all_goals exact absurd ht (text_ne_namespaceAddress (by decide) (by decide) _ _ ns)
    refine ⟨some o, ?_, hnot⟩
    rw [Store.readObject, hs, hput, hobject]
    simp only [ho]

theorem steady_ensureNamespace :
    (ensureNamespace config env ns).Steady «namespace».reach «namespace».reach := by
  have hall : (applyAll (namespaceParts config env ns)).Steady (fun _ => False) «namespace».reach :=
    steady_applyAll reach_namespaceParts
  rw [ensureNamespace_eq]
  refine steady_of_look (reach_namespace ns) (fun read => ?_) ?_
  · split
    · exact framed_fail _
    · exact hall.toFramed
  · intro s s' read hread hfaults hpods ho
    cases hopen : read.any (·.metadata.isDeleting) with
    | true =>
      rw [hopen] at ho
      have hsame := ho _ (reach_namespace ns)
      refine ⟨read, ?_, ?_⟩
      · rw [← hread, Store.readObject, hsame]
        rfl
      · rw [hopen]
        exact ⟨rfl, hfaults⟩
    | false =>
      rw [hopen] at ho
      obtain ⟨read', hread', hopen'⟩ := readObject_applyAll hread hopen (ho _ (reach_namespace ns))
      refine ⟨read', hread', ?_⟩
      rw [hopen']
      exact hall.again s s' hfaults hpods fun _ => False.elim

/-! ## Removal, once more -/

/-- Deletes the object at an address, whether there is one or not. -/
def withdraw (target : Address) : Pass Unit :=
  (request (.deleteObject target)).bind fun _ => .done ()

/-- What is done about an object that has been looked at for its removal. -/
def clear (env : Environment) (target : Address) : Option StoredObject → Pass Unit
  | none => .done ()
  | some existing => if env.isForeign existing.metadata then .done () else withdraw target

theorem clear_of_foreign {target : Address} {existing : StoredObject}
    (h : env.isForeign existing.metadata = true) :
    clear env target (some existing) = .done () := by rw [clear, if_pos h]

theorem clear_of_own {target : Address} {existing : StoredObject}
    (h : env.isForeign existing.metadata = false) :
    clear env target (some existing) = withdraw target := by
  rw [clear, if_neg (Bool.eq_false_iff.1 h)]

theorem removeOwned_eq (env : Environment) (target : Address) :
    ((removeOwned env target).bind fun _ => .done ()) =
      (request (.getObject target)).bind (clear env target) := by
  unfold removeOwned
  rw [bind_eq, bind_assoc]
  congr 1
  funext read
  cases read with
  | none => rfl
  | some existing =>
    simp only [clear]
    split <;> rfl

theorem withdraw_of_hit {target : Address} {s : Store} {hit : Failure × List Fault}
    (h : Fault.strike (.deleteObject target) s.faults = some hit) :
    (withdraw target).outcome s = .failed hit.1 ∧
      (withdraw target).after s = { s with faults := hit.2 } := by
  obtain ⟨ho, ha⟩ := request_of_hit h rfl
  exact ⟨outcome_bind_failed ho, (after_bind_failed ho).trans ha⟩

theorem withdraw_of_miss {target : Address} {s : Store}
    (h : Fault.strike (.deleteObject target) s.faults = none) :
    (withdraw target).outcome s = .done () ∧
      (withdraw target).after s = (s.deleteObject target.text).2 := by
  have ho : (request (.deleteObject target)).outcome s =
      .done (s.deleteObject target.text).1 := (request_of_miss h rfl).1
  have ha : (request (.deleteObject target)).after s = (s.deleteObject target.text).2 :=
    (request_of_miss h rfl).2
  exact ⟨outcome_bind_done ho, (after_bind_done ho).trans ha⟩

theorem framed_clear (env : Environment) (target : Address) (read : Option StoredObject) :
    (clear env target read).Framed fun t => t = target.text := by
  have hw : (withdraw target).Framed fun t => t = target.text :=
    (framed_delete target).bind fun _ => framed_done ()
  cases read with
  | none => exact framed_done ()
  | some existing =>
    cases hf : env.isForeign existing.metadata with
    | true =>
      rw [clear_of_foreign hf]
      exact framed_done ()
    | false =>
      rw [clear_of_own hf]
      exact hw

/-- With no fault in the way, an object is cleared whatever it is. -/
theorem clear_of_miss (env : Environment) {target : Address} {s : Store}
    (read : Option StoredObject) (h : Fault.strike (.deleteObject target) s.faults = none) :
    (clear env target read).outcome s = .done () ∧
      ((clear env target read).after s).faults = s.faults := by
  have hw := withdraw_of_miss h
  cases read with
  | none => exact ⟨rfl, rfl⟩
  | some existing =>
    cases hf : env.isForeign existing.metadata with
    | true =>
      rw [clear_of_foreign hf]
      exact ⟨rfl, rfl⟩
    | false =>
      rw [clear_of_own hf, hw.2]
      exact ⟨hw.1, (s.serve_faults (.deleteObject target)).1⟩

/-- After its deletion an object is gone, or it is held and can still be read. -/
theorem readObject_deleted {s s' : Store} {target : Address} {existing : StoredObject}
    (hread : s.readObject target = .ok (some existing))
    (hs : s'.object? target.text = (s.deleteObject target.text).2.object? target.text) :
    ∃ read', s'.readObject target = .ok read' := by
  rw [Store.object?_deleteObject, if_pos rfl] at hs
  unfold Store.readObject at hread ⊢
  cases ho : s.object? target.text with
  | none =>
    rw [ho] at hread
    cases hread
  | some object =>
    rw [ho] at hread hs
    simp only [Option.bind_some] at hread hs
    split at hs
    · next held =>
      cases hr : StoredObject.read? object with
      | none =>
        rw [hr] at hread
        cases hread
      | some stored =>
        obtain ⟨marked, hm⟩ := Store.read?_markDeleting s.now held hr
        exact ⟨some marked, by simp only [hs, hm]⟩
    · exact ⟨none, by rw [hs]⟩

theorem steady_removeOwned (env : Environment) (target : Address) :
    ((removeOwned env target).bind fun _ => .done ()).Steady (fun t => t = target.text)
      fun t => t = target.text := by
  rw [removeOwned_eq]
  refine steady_of_look rfl (framed_clear env target) ?_
  intro s s' read hread hfaults _ ho
  have hobject := ho _ rfl
  -- Where nothing has been done to the object, the second pass reads what the first one read.
  have hsame (h : ((clear env target read).after s).object? target.text = s.object? target.text) :
      s'.readObject target = .ok read := by
    rw [← hread, Store.readObject, hobject, h]
    rfl
  cases hs : Fault.strike (.deleteObject target) s.faults with
  | none =>
    have hs' : Fault.strike (.deleteObject target) s'.faults = none := by rw [hfaults, hs]
    obtain ⟨hdone, hleft⟩ := clear_of_miss env read hs
    obtain ⟨read', hread'⟩ : ∃ read', s'.readObject target = .ok read' := by
      cases read with
      | none => exact ⟨none, hsame rfl⟩
      | some existing =>
        cases hf : env.isForeign existing.metadata with
        | true =>
          rw [clear_of_foreign hf] at hsame
          exact ⟨some existing, hsame rfl⟩
        | false =>
          rw [clear_of_own hf, (withdraw_of_miss hs).2] at hobject
          exact readObject_deleted hread hobject
    obtain ⟨hdone', hleft'⟩ := clear_of_miss env read' hs'
    refine ⟨read', hread', hdone'.trans hdone.symm, ?_⟩
    rw [hleft', hleft, hfaults]
  | some hit =>
    have hs' : Fault.strike (.deleteObject target) s'.faults = some hit := by rw [hfaults, hs]
    obtain ⟨hfail, hafter⟩ := withdraw_of_hit hs
    obtain ⟨hfail', hafter'⟩ := withdraw_of_hit hs'
    refine ⟨read, ?_⟩
    cases read with
    | none => exact ⟨hsame rfl, rfl, hfaults⟩
    | some existing =>
      cases hf : env.isForeign existing.metadata with
      | true =>
        rw [clear_of_foreign hf] at hsame ⊢
        exact ⟨hsame rfl, rfl, hfaults⟩
      | false =>
        rw [clear_of_own hf] at hsame ⊢
        rw [hafter] at hsame ⊢
        rw [hafter', hfail, hfail']
        exact ⟨hsame rfl, rfl, rfl⟩

theorem steady_remove (child : Child) :
    (child.remove config env ns).Steady child.reach child.reach := by
  refine (steady_removeOwned env (child.address config env ns)).mono ?_ ?_
  · rintro t rfl
    exact reach_address child
  · rintro t rfl
    exact reach_address child

theorem steady_ensureIngress :
    (ensureIngress config env ns).Steady ingress.reach ingress.reach := by
  cases ho : ingressObject? env ns config with
  | none =>
    rw [ensureIngress_of_none ho]
    refine (steady_removeOwned env (ingressAddress ns)).mono ?_ ?_
    · rintro t rfl
      exact reach_ingress ns
    · rintro t rfl
      exact reach_ingress ns
  | some object =>
    rw [ensureIngress_of_some ho]
    refine (steady_apply _).mono (fun _ => id) fun t ht => ?_
    rw [ht]
    exact reach_ingress ns

theorem steady_ensureDescriptor :
    (ensureDescriptor config env ns).Steady descriptor.reach descriptor.reach := by
  rw [ensureDescriptor_eq]
  refine (steady_apply _).mono (fun _ => id) fun t ht => ?_
  rw [ht]
  exact reach_descriptor _ config

theorem steady_ensure (child : Child) :
    (child.ensure config env ns).Steady child.reach child.reach := by
  cases child with
  | «namespace» => exact steady_ensureNamespace
  | ingress => exact steady_ensureIngress
  | descriptor => exact steady_ensureDescriptor

end Child
end PreviewControl
