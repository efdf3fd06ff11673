import PreviewControl.Proofs.Marking
import PreviewControl.Proofs.Runs
import PreviewControl.Proofs.Upkeep

/-!
# Passes that can be repeated

A pass is steady if it comes to the same a second time, on the cluster as it has left it and with
the faults that were there at first. Steady passes in a row are steady if neither reads what the
other one writes.
-/
namespace PreviewControl

variable {α β : Type}

/-! ## Texts of addresses -/

/-- The first blank of a text leaves no choice where to cut it. -/
private theorem cut_at_blank {as bs rest rest' : List Char} (ha : ' ' ∉ as) (hb : ' ' ∉ bs)
    (h : as ++ ' ' :: rest = bs ++ ' ' :: rest') : as = bs ∧ rest = rest' := by
  induction as generalizing bs with
  | nil =>
    cases bs with
    | nil => exact ⟨rfl, (List.cons.inj h).2⟩
    | cons b bs => exact absurd ((List.cons.inj h).1 ▸ List.mem_cons_self) hb
  | cons a as ih =>
    cases bs with
    | nil => exact absurd ((List.cons.inj h).1 ▸ List.mem_cons_self) ha
    | cons b bs =>
      obtain ⟨rfl, htail⟩ := List.cons.inj h
      obtain ⟨rfl, hr⟩ := ih (fun hm => ha (List.mem_cons_of_mem _ hm))
        (fun hm => hb (List.mem_cons_of_mem _ hm)) htail
      exact ⟨rfl, hr⟩

/-- A kind that is written without blanks. -/
def ResourceKind.Plain (k : ResourceKind) : Prop :=
  ' ' ∉ k.apiVersion.toList ∧ ' ' ∉ k.kind.toList

instance (k : ResourceKind) : Decidable k.Plain := inferInstanceAs (Decidable (_ ∧ _))

namespace Address

/-- The text of an address tells its kind and what comes after it. -/
private theorem cut_of_text {a b : Address} (ha : a.kind.Plain) (hb : b.kind.Plain)
    (h : a.text = b.text) : a.kind.kind.toList = b.kind.kind.toList ∧
      (a.ns.getD "-" ++ "/" ++ a.name).toList = (b.ns.getD "-" ++ "/" ++ b.name).toList := by
  have hl := congrArg String.toList h
  have hblank : " ".toList = [' '] := rfl
  simp only [text, String.toList_append, List.append_assoc, hblank, List.cons_append,
    List.nil_append] at hl ⊢
  obtain ⟨_, hrest⟩ := cut_at_blank ha.1 hb.1 hl
  exact cut_at_blank ha.2 hb.2 hrest

/-- The text of an address tells its kind. -/
theorem kind_of_text {a b : Address} (ha : a.kind.Plain) (hb : b.kind.Plain)
    (h : a.text = b.text) : a.kind.kind = b.kind.kind :=
  String.toList_inj.1 (cut_of_text ha hb h).1

/-- The text of an address tells its name if its namespace is known. -/
theorem name_of_text {a b : Address} (ha : a.kind.Plain) (hb : b.kind.Plain) (hns : a.ns = b.ns)
    (h : a.text = b.text) : a.name = b.name := by
  have hrest := (cut_of_text ha hb h).2
  simp only [hns, String.toList_append] at hrest
  exact String.toList_inj.1 (List.append_cancel_left hrest)

/-- The text of some object of one of these kinds. -/
def OfKinds (kinds : List String) (text : String) : Prop :=
  ∃ a : Address, a.kind.Plain ∧ a.kind.kind ∈ kinds ∧ a.text = text

theorem ofKinds_text {kinds : List String} {kind : ResourceKind} (hp : kind.Plain)
    (hk : kind.kind ∈ kinds) (name : String) (ns : Option String) :
    OfKinds kinds (Address.mk kind name ns).text := ⟨_, hp, hk, rfl⟩

theorem OfKinds.disjoint {kinds kinds' : List String} (h : ∀ k ∈ kinds, k ∉ kinds') {text : String}
    (ht : OfKinds kinds text) : ¬OfKinds kinds' text := by
  rintro ⟨b, hb, hk, hbt⟩
  obtain ⟨a, ha, hk', hat⟩ := ht
  refine h _ hk' ?_
  rw [kind_of_text ha hb (hat.trans hbt.symm)]
  exact hk

end Address

namespace Pass

/-- A pass that touches neither the pods nor any objects but those under some texts. -/
structure Framed (p : Pass α) (writes : String → Prop) : Prop where
  pods : ∀ s, (p.after s).pods = s.pods
  frame : ∀ s text, ¬writes text → (p.after s).object? text = s.object? text

/-- A framed pass that comes to the same a second time, with the faults that were there at first and
with the objects that it reads as it has left them. -/
structure Steady (p : Pass α) (reads writes : String → Prop) : Prop extends Framed p writes where
  again : ∀ s s' : Store, s'.faults = s.faults → s'.pods = s.pods →
    (∀ text, reads text → s'.object? text = (p.after s).object? text) →
    p.outcome s' = p.outcome s ∧ (p.after s').faults = (p.after s).faults

variable {reads writes reads' writes' : String → Prop}

theorem Framed.mono {p : Pass α} (h : p.Framed writes) (hw : ∀ t, writes t → writes' t) :
    p.Framed writes' where
  pods := h.pods
  frame s text ht := h.frame s text fun hw' => ht (hw text hw')

theorem Framed.bind {p : Pass α} {f : α → Pass β} (hp : p.Framed writes)
    (hf : ∀ a, (f a).Framed writes) : (p.bind f).Framed writes where
  pods s := by
    rcases p.done_or_not s with ⟨a, ha⟩ | hne
    · rw [after_bind_done ha, (hf a).pods, hp.pods]
    · rw [after_bind_of_ne hne, hp.pods]
  frame s text ht := by
    rcases p.done_or_not s with ⟨a, ha⟩ | hne
    · rw [after_bind_done ha, (hf a).frame _ _ ht, hp.frame _ _ ht]
    · rw [after_bind_of_ne hne, hp.frame _ _ ht]

theorem Framed.attempt {p : Pass α} (h : p.Framed writes) : p.attempt.Framed writes where
  pods s := by
    rw [after_attempt]
    exact h.pods s
  frame s text ht := by
    rw [after_attempt]
    exact h.frame s text ht

theorem Steady.mono {p : Pass α} (h : p.Steady reads writes) (hr : ∀ t, reads t → reads' t)
    (hw : ∀ t, writes t → writes' t) : p.Steady reads' writes' where
  toFramed := h.toFramed.mono hw
  again s s' hf hp ho := h.again s s' hf hp fun text ht => ho text (hr text ht)

theorem framed_done (a : α) : (done a).Framed writes := ⟨fun _ => rfl, fun _ _ _ => rfl⟩

theorem framed_fail (e : Failure) : (fail e : Pass α).Framed writes :=
  ⟨fun _ => rfl, fun _ _ _ => rfl⟩

theorem steady_done (a : α) : (done a).Steady reads writes where
  toFramed := framed_done a
  again _ _ hf _ _ := ⟨rfl, hf⟩

theorem steady_fail (e : Failure) : (fail e : Pass α).Steady reads writes where
  toFramed := framed_fail e
  again _ _ hf _ _ := ⟨rfl, hf⟩

theorem steady_report (e : Event) : (report e).Steady reads writes where
  pods _ := rfl
  frame _ _ _ := rfl
  again _ _ hf _ _ := ⟨rfl, hf⟩

theorem Steady.attempt {p : Pass α} (h : p.Steady reads writes) :
    p.attempt.Steady reads writes where
  toFramed := h.toFramed.attempt
  again s s' hf hp ho := by
    simp only [after_attempt] at ho ⊢
    obtain ⟨heq, hfaults⟩ := h.again s s' hf hp ho
    rw [outcome_attempt, outcome_attempt, heq]
    exact ⟨rfl, hfaults⟩

private theorem outcome_bind_congr {p : Pass α} {f : α → Pass β} {s s' : Store}
    (h : ∀ a, p.outcome s ≠ .done a) (heq : p.outcome s' = p.outcome s) :
    (p.bind f).outcome s' = (p.bind f).outcome s := by
  rw [outcome, outcome, observe_bind, observe_bind, Run.next, Run.next]
  rw [outcome, outcome] at heq
  rw [outcome] at h
  rw [heq]
  cases ho : (Simulation.observe p s).1 with
  | done a => exact absurd ho (h a)
  | failed e => rfl
  | overflow => rfl

/-- A pass without a result stays one when it goes on. -/
private theorem again_of_ne {p : Pass α} {f : α → Pass β} {s s' : Store}
    (h : ∀ a, p.outcome s ≠ .done a)
    (again : p.outcome s' = p.outcome s ∧ (p.after s').faults = (p.after s).faults) :
    (p.bind f).outcome s' = (p.bind f).outcome s ∧
      ((p.bind f).after s').faults = ((p.bind f).after s).faults := by
  have h' : ∀ a, p.outcome s' ≠ .done a := by
    rw [again.1]
    exact h
  rw [after_bind_of_ne h, after_bind_of_ne h']
  exact ⟨outcome_bind_congr h again.1, again.2⟩

theorem Steady.bind {p : Pass α} {f : α → Pass β} (hp : p.Steady reads writes)
    (hf : ∀ a, (f a).Steady reads' writes') (h : ∀ t, reads t → ¬writes' t)
    (h' : ∀ t, reads' t → ¬writes t) :
    (p.bind f).Steady (fun t => reads t ∨ reads' t) (fun t => writes t ∨ writes' t) where
  toFramed := (hp.toFramed.mono fun _ => .inl).bind fun a => (hf a).toFramed.mono fun _ => .inr
  again s s' hfaults hpods ho := by
    rcases p.done_or_not s with ⟨a, ha⟩ | hne
    · rw [after_bind_done ha] at ho
      -- What the first pass reads is as it has left it, since the second one does not write it.
      obtain ⟨heq, hfirst⟩ := hp.again s s' hfaults hpods fun t ht =>
        (ho t (.inl ht)).trans ((hf a).frame _ t (h t ht))
      obtain ⟨heq', hsecond⟩ := (hf a).again (p.after s) (p.after s') hfirst
        ((hp.pods s').trans (hpods.trans (hp.pods s).symm)) fun t ht =>
          (hp.frame s' t (h' t ht)).trans (ho t (.inr ht))
      have ha' := heq.trans ha
      rw [outcome_bind_done ha, outcome_bind_done ha', after_bind_done ha, after_bind_done ha']
      exact ⟨heq', hsecond⟩
    · rw [after_bind_of_ne hne] at ho
      exact again_of_ne hne (hp.again s s' hfaults hpods fun t ht => ho t (.inl ht))

/-! ## Single calls -/

private theorem answer_pods (s : Store) {c : Call} (hc : c.takesTime = false) :
    (s.answer c).2.pods = s.pods := by
  cases hs : Fault.strike c s.faults with
  | some hit => rw [Store.answer_of_hit hs hc]
  | none =>
    rw [Store.answer_of_miss hs hc]
    exact (s.serve_faults c).2

/-- A call changes an object only if the cluster serves it. -/
private theorem answer_object? {s : Store} {c : Call} {text : String}
    (hc : c.takesTime = false)
    (h : (s.serve c).2.object? text = s.object? text) :
    (s.answer c).2.object? text = s.object? text := by
  cases hs : Fault.strike c s.faults with
  | some hit =>
    rw [Store.answer_of_hit hs hc]
    rfl
  | none =>
    rw [Store.answer_of_miss hs hc]
    exact h

/-- A call that is served as before is answered as before, and a fault hits it as before. -/
private theorem answer_again {s s' : Store} {c : Call} (hc : c.takesTime = false)
    (hfaults : s'.faults = s.faults) (h : (s'.serve c).1 = (s.serve c).1) :
    (s'.answer c).1 = (s.answer c).1 ∧ (s'.answer c).2.faults = (s.answer c).2.faults := by
  cases hs : Fault.strike c s.faults with
  | some hit =>
    rw [Store.answer_of_hit hs hc, Store.answer_of_hit (hfaults ▸ hs) hc]
    exact ⟨rfl, rfl⟩
  | none =>
    rw [Store.answer_of_miss hs hc, Store.answer_of_miss (hfaults ▸ hs) hc]
    exact ⟨h, (s'.serve_faults c).1.trans (hfaults.trans (s.serve_faults c).1.symm)⟩

theorem steady_apply (m : Manifest) :
    (request (.apply m)).Steady reads fun t => t = m.target.text where
  pods s := by
    rw [after_request]
    exact answer_pods s rfl
  frame s text ht := by
    rw [after_request]
    exact answer_object? rfl ((Store.object?_putObject ..).trans (if_neg ht))
  again s s' hfaults _ _ := by
    obtain ⟨heq, hleft⟩ := answer_again (c := .apply m) rfl hfaults rfl
    rw [outcome_request, outcome_request, after_request, after_request, heq]
    exact ⟨rfl, hleft⟩

theorem steady_look (target : Address) :
    (request (.getObject target)).Steady (fun t => t = target.text) writes where
  pods s := by
    rw [after_request]
    exact answer_pods s rfl
  frame s text ht := by
    rw [after_request]
    exact answer_object? rfl rfl
  again s s' hfaults _ ho := by
    have hsame := ho target.text rfl
    rw [after_request, answer_object? (c := .getObject target) rfl rfl] at hsame
    have hread : s'.readObject target = s.readObject target := by
      rw [Store.readObject, hsame]
      rfl
    obtain ⟨heq, hleft⟩ := answer_again (c := .getObject target) rfl hfaults hread
    rw [outcome_request, outcome_request, after_request, after_request, heq]
    exact ⟨rfl, hleft⟩

theorem steady_listPods (ns : String) : (inquire (.listPods ns)).Steady reads writes where
  pods s := by
    rw [after_inquire]
    exact answer_pods s rfl
  frame s text ht := by
    rw [after_inquire]
    exact answer_object? rfl rfl
  again s s' hfaults hpods _ := by
    have hlist : (s'.serve (.listPods ns)).1 = (s.serve (.listPods ns)).1 := by
      show Except.ok (s'.podsIn ns) = Except.ok (s.podsIn ns)
      rw [Store.podsIn, hpods]
      rfl
    obtain ⟨heq, hleft⟩ := answer_again (c := .listPods ns) rfl hfaults hlist
    rw [outcome_inquire, outcome_inquire, after_inquire, after_inquire, heq]
    exact ⟨rfl, hleft⟩

theorem framed_delete (target : Address) :
    (request (.deleteObject target)).Framed fun t => t = target.text where
  pods s := by
    rw [after_request]
    exact answer_pods s rfl
  frame s text ht := by
    rw [after_request]
    exact answer_object? rfl ((Store.object?_deleteObject ..).trans (if_neg ht))

/-! ## A look before the act -/

theorem look_done {target : Address} {s : Store} {r : Option StoredObject} :
    (request (.getObject target)).outcome s = .done r ↔
      Fault.strike (.getObject target) s.faults = none ∧ s.readObject target = .ok r :=
  request_done_iff rfl

theorem after_look {target : Address} {s : Store}
    (h : Fault.strike (.getObject target) s.faults = none) :
    (request (.getObject target)).after s = s := (request_of_miss h rfl).2

/-- A pass that looks at an object first is steady if it reads the same way what it has made of the
object. -/
theorem steady_of_look {target : Address} {k : Option StoredObject → Pass α}
    (ht : reads target.text) (hk : ∀ r, (k r).Framed writes)
    (again : ∀ (s s' : Store) (r : Option StoredObject), s.readObject target = .ok r →
      s'.faults = s.faults → s'.pods = s.pods →
      (∀ text, reads text → s'.object? text = ((k r).after s).object? text) →
      ∃ r', s'.readObject target = .ok r' ∧ (k r').outcome s' = (k r).outcome s ∧
        ((k r').after s').faults = ((k r).after s).faults) :
    ((request (.getObject target)).bind k).Steady reads writes where
  toFramed := (steady_look target).toFramed.bind hk
  again s s' hfaults hpods ho := by
    rcases (request (.getObject target)).done_or_not s with ⟨r, hr⟩ | hne
    · obtain ⟨hs, hread⟩ := look_done.1 hr
      have hs' : Fault.strike (.getObject target) s'.faults = none := by rw [hfaults, hs]
      rw [after_bind_done hr, after_look hs] at ho
      obtain ⟨r', hread', heq, hleft⟩ := again s s' r hread hfaults hpods ho
      have hr' := look_done.2 ⟨hs', hread'⟩
      rw [outcome_bind_done hr, outcome_bind_done hr', after_bind_done hr, after_bind_done hr',
        after_look hs, after_look hs']
      exact ⟨heq, hleft⟩
    · rw [after_bind_of_ne hne] at ho
      have hlook : (request (.getObject target)).Steady (fun t => t = target.text) writes :=
        steady_look target
      refine again_of_ne hne (hlook.again s s' hfaults hpods fun t heq => ?_)
      rw [heq]
      exact ho _ ht

end Pass
end PreviewControl
