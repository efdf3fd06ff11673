import Mathlib.Logic.Relation
import PreviewControl.Proofs.Placement
import PreviewControl.Proofs.Rendering

/-!
# What earlier passes leave of the children

Passes over earlier versions of a record may be cut short anywhere, and any of their calls may fail.
What they leave where its children live has been rendered for the record, and nothing else of the
kinds of the children names the record as its owner. From such a state a pass can put all children
in place.
-/
namespace PreviewControl

open Pass Reconcile

/-- A call about a record does not touch the objects. -/
theorem Store.object?_serve {c : Call} (h : c.isAside = false) (s : Store) (text : String) :
    (s.serve c).2.object? text = s.object? text := by
  cases c with
  | apply | getObject | deleteObject | listPods => cases h
  | getEnvironment | listEnvironments => rfl
  | deleteEnvironment name ns => exact object?_deleteRecord s ⟨ns, name⟩ text
  | patchStatus env status =>
    simp only [serve]
    cases s.current env <;> rfl
  | addFinalizer env =>
    simp only [serve, write]
    cases s.current env <;> rfl
  | removeFinalizer env =>
    simp only [serve, write]
    cases s.current env with
    | error e => rfl
    | ok stored =>
      simp only [Except.map, answerWrite, settle]
      split <;> rfl

namespace Child

variable {config : Config} {env earlier : Environment} {ns text : String} {object : Json}
  {s left : Store} {c : Call}

/-- An object of one of the kinds of the children that names a record as its owner. -/
structure Owned (env : Environment) (s : Store) (text : String) (object : Json) : Prop where
  kind : reachAll all text
  there : s.object? text = some object
  marked : ∃ stored, StoredObject.read? object = some stored ∧ env.owns stored.metadata = true

/-- An object that was rendered for a record into this namespace, from whatever spec of the same
pull request. -/
def Leftover (config : Config) (env : Environment) (ns text : String) (object : Json) : Prop :=
  ∃ earlier : Environment, earlier.metadata.uid = env.metadata.uid ∧
    earlier.spec.prNumber = env.spec.prNumber ∧
    ∃ m ∈ parts config earlier ns, m.target.text = text ∧ m.object = object

theorem Leftover.place (h : Leftover config env ns text object) :
    ∃ child : Child, child.Place config env.spec.prNumber ns text := by
  obtain ⟨earlier, _, hpr, m, hm, rfl, _⟩ := h
  obtain ⟨child, _, hportion⟩ := mem_parts.1 hm
  exact ⟨child, m.target, hpr ▸ target_mem_homes hportion, rfl⟩

theorem Leftover.not_held (h : Leftover config env ns text object) :
    Store.objectIsHeld object = false := by
  obtain ⟨earlier, _, _, m, hm, _, rfl⟩ := h
  exact (rendered_part hm).not_held

/-- What is left of the children of a record can be read, and is its own. -/
theorem Leftover.read (h : Leftover config env ns text object)
    (identified : env.metadata.uid.isSome = true) :
    ∃ stored, StoredObject.read? object = some stored ∧ stored.metadata.isDeleting = false ∧
      env.owns stored.metadata = true := by
  obtain ⟨earlier, huid, _, m, hm, _, rfl⟩ := h
  obtain ⟨stored, hstored, hdeleting, hmark⟩ := (rendered_part hm).read
  obtain ⟨uid, hsome⟩ := Option.isSome_iff_exists.1 identified
  refine ⟨stored, hstored, hdeleting, ?_⟩
  rw [huid, hsome, Option.getD_some] at hmark
  rw [Environment.owns, hsome, hmark]
  exact beq_self_eq_true _

/-- Where the children of a record live there is nothing but what was rendered for it, and nothing
else belongs to it. -/
structure Tidy (config : Config) (env : Environment) (ns : String) (s : Store) : Prop where
  leftover : ∀ (child : Child) (text : String) (object : Json),
    child.Place config env.spec.prNumber ns text → s.object? text = some object →
      Leftover config env ns text object
  homes : ∀ text object, Owned env s text object →
    ∃ child : Child, child.Place config env.spec.prNumber ns text

theorem Place.reachAll {child : Child} {pr : UInt32} (h : child.Place config pr ns text) :
    reachAll all text := by
  refine ⟨child, ?_, h.reach⟩
  cases child <;> decide

namespace Tidy

/-- Where nothing was ever put in place, all is tidy. -/
theorem of_empty (h : ∀ text, reachAll all text → s.object? text = none) :
    Tidy config env ns s where
  leftover child text object hplace ho := by
    rw [h text hplace.reachAll] at ho
    cases ho
  homes text object ho := by
    have hthere := ho.there
    rw [h text ho.kind] at hthere
    cases hthere

theorem of_kept (h : Tidy config env ns s)
    (kept : ∀ text, reachAll all text → left.object? text = s.object? text) :
    Tidy config env ns left where
  leftover child text object hplace ho :=
    h.leftover child text object hplace ((kept text hplace.reachAll).symm.trans ho)
  homes text object ho :=
    h.homes text object ⟨ho.kind, (kept text ho.kind).symm.trans ho.there, ho.marked⟩

/-- A pass can put all children in place. -/
theorem ready (h : Tidy config env ns s) (identified : env.metadata.uid.isSome = true)
    (child : Child) : child.Ready env ns s := by
  have hread {child : Child} {target : Address}
      (ht : target ∈ child.homes config env.spec.prNumber ns) :
      ∃ read, s.readObject target = .ok read ∧ read.any (·.metadata.isDeleting) = false ∧
        read.any (env.isForeign ·.metadata) = false := by
    unfold Store.readObject
    cases ho : s.object? target.text with
    | none => exact ⟨none, rfl, rfl, rfl⟩
    | some object =>
      obtain ⟨stored, hstored, hdeleting, howns⟩ :=
        (h.leftover child _ _ ⟨target, ht, rfl⟩ ho).read identified
      exact ⟨some stored, by simp only [hstored], hdeleting,
        Environment.not_isForeign_of_owns howns⟩
  cases child with
  | «namespace» =>
    have hhome : namespaceAddress ns ∈ «namespace».homes config env.spec.prNumber ns :=
      List.mem_cons_self
    obtain ⟨read, hok, hopen, _⟩ := hread hhome
    exact ⟨read, hok, hopen⟩
  | ingress =>
    have hhome : ingressAddress ns ∈ ingress.homes config env.spec.prNumber ns :=
      List.mem_singleton_self _
    obtain ⟨read, hok, _, hown⟩ := hread hhome
    refine ⟨read, hok, hown, ?_⟩
    cases ho : s.object? (ingressAddress ns).text with
    | none => rfl
    | some object => exact (h.leftover ingress _ _ ⟨_, hhome, rfl⟩ ho).not_held
  | descriptor => trivial

end Tidy

/-! ## What a pass does to the children -/

/-- A call that puts nothing in place but what is rendered for the record, and removes nothing but
its children. -/
def Harmless (config : Config) (env : Environment) (ns : String) : Call → Prop
  | .apply m => Leftover config env ns m.target.text m.object
  | .deleteObject target => ∃ child : Child, child.Place config env.spec.prNumber ns target.text
  | _ => True

private theorem Tidy.apply {m : Manifest} (h : Tidy config env ns s)
    (part : Leftover config env ns m.target.text m.object) :
    Tidy config env ns (s.putObject m.target.text m.object) where
  leftover child text object hplace ho := by
    rw [Store.object?_putObject] at ho
    split at ho
    · next htext =>
      obtain rfl := Option.some.inj ho
      exact htext ▸ part
    · exact h.leftover child text object hplace ho
  homes text object ho := by
    have hthere := ho.there
    rw [Store.object?_putObject] at hthere
    split at hthere
    · next htext => exact htext ▸ part.place
    · exact h.homes text object ⟨ho.kind, hthere, ho.marked⟩

/-- What is removed goes away at once, since nothing holds it. -/
private theorem Tidy.withdraw {target : Address} {child : Child} (h : Tidy config env ns s)
    (place : child.Place config env.spec.prNumber ns target.text) :
    Tidy config env ns (s.deleteObject target.text).2 := by
  have hgone : (s.deleteObject target.text).2.object? target.text = none := by
    rw [Store.object?_deleteObject, if_pos rfl]
    cases ho : s.object? target.text with
    | none => rfl
    | some object =>
      have hfree := (h.leftover child _ _ place ho).not_held
      exact if_neg (Bool.eq_false_iff.1 hfree)
  have hother {text : String} {object : Json}
      (ho : (s.deleteObject target.text).2.object? text = some object) :
      s.object? text = some object := by
    by_cases ht : text = target.text
    · rw [ht, hgone] at ho
      cases ho
    · rwa [Store.object?_deleteObject, if_neg ht] at ho
  exact ⟨fun child text object hplace ho => h.leftover child text object hplace (hother ho),
    fun text object ho => h.homes text object ⟨ho.kind, hother ho.there, ho.marked⟩⟩

private theorem Tidy.serve (h : Tidy config env ns s) (harmless : Harmless config env ns c) :
    Tidy config env ns (s.serve c).2 := by
  cases hc : c.isAside with
  | false => exact h.of_kept fun text _ => Store.object?_serve hc s text
  | true =>
    cases c with
    | apply m => exact h.apply harmless
    | deleteObject target =>
      obtain ⟨child, place⟩ := harmless
      exact h.withdraw place
    | getObject | listPods => exact h
    | _ => cases hc

/-- Whatever comes of such a call, all stays tidy. -/
theorem Tidy.served {answer : c.Answer} (h : Tidy config env ns s)
    (harmless : Harmless config env ns c) (served : s.Served c answer left) :
    Tidy config env ns left := by
  cases served with
  | answered | lost => exact h.serve harmless
  | failed => exact h

/-- An earlier version of a record, of the same pull request and with the same namespace. -/
structure Version (env : Environment) (ns : String) (earlier : Environment) : Prop where
  uid : earlier.metadata.uid = env.metadata.uid
  prNumber : earlier.spec.prNumber = env.spec.prNumber
  space : spaceOf earlier earlier.known = ns

theorem Version.leftover {m : Manifest} (h : Version env ns earlier)
    (part : m ∈ parts config earlier ns) : Leftover config env ns m.target.text m.object :=
  ⟨earlier, h.uid, h.prNumber, m, part, rfl, rfl⟩

variable {notice : Metadata} {now : Instant} {t : List Deed}

/-- All versions of the record that the pass has been told of are of this kind. -/
def ToldOf (env : Environment) (ns : String) (t : List Deed) : Prop :=
  ∀ d ∈ t, ∀ told, d.told? = some told → Version env ns told

/-- A pass puts children into the namespace of the record, whether it is recorded or not. -/
private theorem version_of_entered {latest : Environment} {status : Status}
    (h : Version env ns earlier) (entered : Entered config earlier now t latest status)
    (told : ToldOf env ns t) : Version env ns latest ∧ spaceOf latest status = ns := by
  cases entered with
  | known => exact ⟨h, h.space⟩
  | accepted unrecorded made =>
    refine ⟨told _ (List.mem_singleton_self _) latest rfl, ?_⟩
    rw [spaceOf, Status.accepted_ns made, Option.getD_some, ← h.space, spaceOf, unrecorded]
    rfl

private theorem harmless_of_upkeep (h : Version env ns earlier)
    (upkeep : Upkeep config earlier ns c) : Harmless config env ns c := by
  cases upkeep with
  | apply part => exact h.leftover part
  | look => trivial
  | withdraw => exact ⟨ingress, ingressAddress ns, List.mem_singleton_self _, rfl⟩

private theorem harmless_of_converging (h : Version env ns earlier)
    (turn : Converging config earlier now t c) (told : ToldOf env ns t) :
    Harmless config env ns c := by
  cases turn with
  | accept | price | write => trivial
  | tend entered upkeep =>
    obtain ⟨hlatest, hspace⟩ := version_of_entered h entered fun d hd =>
      told d (List.mem_append_left _ hd)
    rw [hspace] at upkeep
    exact harmless_of_upkeep hlatest upkeep

/-- No pass over an earlier version of a record does anything else to the objects. -/
theorem harmless_of_asks (asks : (pass config notice now).Asks t c) (told : ToldOf env ns t) :
    Harmless config env ns c := by
  cases turn_of_asks asks with
  | read | hold | refuse | mark | letGo => trivial
  | @converge space earlier u c place staying held valid turn =>
    have hversion := told (Reconcile.read notice space earlier) List.mem_cons_self earlier rfl
    exact harmless_of_converging hversion turn fun d hd => told d (List.mem_cons_of_mem _ hd)
  | @clear space earlier latest mark u v before after child c place deleting held marked split
      cleared turn =>
    have hversion := told (Reconcile.read notice space earlier) List.mem_cons_self earlier rfl
    have hspace : earlier.childNamespace = ns :=
      earlier.childNamespace_eq.trans hversion.space
    rcases asks_removeOwned (asks_remove.1 turn) with ⟨_, rfl⟩ | ⟨_, _, _, rfl⟩
    · trivial
    · refine ⟨child, _, ?_, rfl⟩
      rw [hspace, ← hversion.prNumber]
      exact address_mem_homes child

/-! ## A run of earlier passes -/

/-- One step of earlier times: a call that a pass over an earlier version of the record asks for,
whatever comes of it, or anything that leaves the children alone. -/
inductive Earlier (config : Config) (env : Environment) (ns : String) (s : Store) :
    Store → Prop where
  | call {notice : Metadata} {now : Instant} {t : List Deed} {c : Call} {answer : c.Answer}
      {left : Store} (asks : (pass config notice now).Asks t c) (told : ToldOf env ns t)
      (served : s.Served c answer left) : Earlier config env ns s left
  | other {left : Store}
      (kept : ∀ text, reachAll all text → left.object? text = s.object? text) :
    Earlier config env ns s left

theorem Tidy.step (h : Tidy config env ns s) (step : Earlier config env ns s left) :
    Tidy config env ns left := by
  cases step with
  | call asks told served => exact h.served (harmless_of_asks asks told) served
  | other kept => exact h.of_kept kept

/-- Passes over earlier versions of a record, cut short or not, leave all tidy. -/
theorem Tidy.run (h : Tidy config env ns s)
    (run : Relation.ReflTransGen (Earlier config env ns) s left) : Tidy config env ns left := by
  induction run with
  | refl => exact h
  | tail _ step ih => exact ih.step step

end Child
end PreviewControl
