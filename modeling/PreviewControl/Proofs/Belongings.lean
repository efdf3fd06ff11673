import PreviewControl.Proofs.Leftovers

/-!
# Children of records that share names

Several records may have children of the same names. What is put in place for one of them names it
as its owner, and a removal by another one leaves that alone. So each record can clear away what was
put in place for it, and nothing that was put in place for another.
-/
namespace PreviewControl

open Pass Reconcile

namespace Child

/-! ## One task after the other -/

/-- A child of a record is put in place or removed. -/
inductive Task where
  | ensure (config : Config) (env : Environment) (ns : String) (child : Child)
  | remove (config : Config) (env : Environment) (ns : String) (child : Child)

namespace Task

def pass : Task → Pass Unit
  | ensure config env ns child => child.ensure config env ns
  | remove config env ns child => child.remove config env ns

/-- The cluster after one task after the other, whatever comes of each of them. -/
def run (s : Store) (tasks : List Task) : Store := tasks.foldl (fun s task => task.pass.after s) s

end Task

variable {config : Config} {env : Environment} {ns uid text : String} {object : Json} {s : Store}
  {child : Child} {c : Call}

/-- No call fails, and where children live there are only objects that are fit to be there and that
go away at once when they are deleted. -/
structure Houses (fit : String → Json → Prop) (s : Store) : Prop where
  calm : s.Faultless
  free : ∀ text object, reachAll all text → s.object? text = some object →
    Store.objectIsHeld object = false
  fits : ∀ text object, reachAll all text → s.object? text = some object → fit text object

/-- An object that can be read. -/
def Legible (object : Json) : Prop := (StoredObject.read? object).isSome = true

/-- No call fails, and the children that are there can be read and deleted. -/
def Sound (s : Store) : Prop := Houses (fun _ object => Legible object) s

/-- An object that names an identity as its owner. -/
def NamedBy (uid : String) (object : Json) : Prop :=
  ∃ stored, StoredObject.read? object = some stored ∧
    stored.metadata.annotationAt? Environment.uidMark = some uid

theorem Rendered.legible (h : Rendered env object) : Legible object := by
  obtain ⟨stored, hstored, _⟩ := h.read
  rw [Legible, hstored]
  rfl

theorem Rendered.namedBy (h : Rendered env object) (identified : env.metadata.uid = some uid) :
    NamedBy uid object := by
  obtain ⟨stored, hstored, _, hmark⟩ := h.read
  rw [identified] at hmark
  exact ⟨stored, hstored, hmark⟩

/-! ## What putting a child in place applies -/

/-- Nothing is applied but what the child consists of. -/
theorem applies_portion {t : List Deed} {m : Manifest}
    (asks : (child.ensure config env ns).Asks t (.apply m)) :
    m ∈ child.portion config env ns := by
  have makes : (child.ensure config env ns).Makes fun c =>
      ∀ m, c = .apply m → m ∈ child.portion config env ns := by
    cases child with
    | «namespace» =>
      show (ensureNamespace config env ns).Makes _
      rw [ensureNamespace_eq]
      refine makes_bind (makes_request fun m hm => nomatch hm) fun existing => ?_
      split
      · exact makes_fail _
      · refine makes_applyAll fun n hn m hm => ?_
        cases hm
        exact hn
    | ingress =>
      show (ensureIngress config env ns).Makes _
      cases ho : ingressObject? env ns config with
      | none =>
        rw [ensureIngress_of_none ho]
        refine makes_bind (fun t c hc m hm => ?_) fun _ => makes_done ()
        subst hm
        rcases asks_removeOwned hc with ⟨_, hc⟩ | ⟨_, _, _, hc⟩
        · cases hc
        · cases hc
      | some object =>
        rw [ensureIngress_of_some ho]
        refine makes_request fun m hm => ?_
        cases hm
        rw [portion, ho]
        exact List.mem_singleton_self _
    | descriptor =>
      show (ensureDescriptor config env ns).Makes _
      rw [ensureDescriptor_eq]
      refine makes_request fun m hm => ?_
      cases hm
      exact List.mem_singleton_self _
  exact makes t _ asks m rfl

theorem rendered_of_asks {t : List Deed} {m : Manifest}
    (asks : (child.ensure config env ns).Asks t (.apply m)) : Rendered env m.object := by
  refine rendered_part (mem_parts.2 ⟨child, ?_, applies_portion asks⟩)
  cases child <;> decide

/-- A call about an object. What it applies is held by nothing and fit to be put there. -/
structure Orderly (fit : String → Json → Prop) (c : Call) : Prop where
  aside : c.isAside = true
  free : ∀ m, c = .apply m → Store.objectIsHeld m.object = false
  fits : ∀ m, c = .apply m → fit m.target.text m.object

variable {fit : String → Json → Prop}

/-- What is found after an orderly call was there before, or it has been applied. -/
theorem found_after (houses : Houses fit s) (orderly : Orderly fit c) (reach : reachAll all text)
    (ho : (s.answer c).2.object? text = some object) : s.object? text = some object ∨
      ∃ m, c = .apply m ∧ m.target.text = text ∧ m.object = object := by
  have htime : c.takesTime = false := by cases c <;> first | rfl | cases orderly.aside
  rw [Store.answer_of_miss (houses.calm c) htime] at ho
  cases c with
  | apply m =>
    change (s.putObject m.target.text m.object).object? text = some object at ho
    rw [Store.object?_putObject] at ho
    split at ho
    · next htext => exact .inr ⟨m, rfl, htext.symm, Option.some.inj ho⟩
    · exact .inl ho
  | deleteObject target =>
    change (s.deleteObject target.text).2.object? text = some object at ho
    rw [Store.object?_deleteObject] at ho
    split at ho
    · next htext =>
      -- Nothing is left of an object that nothing holds.
      obtain ⟨old, hold, hleft⟩ := Option.bind_eq_some_iff.1 ho
      rw [houses.free text old reach (htext ▸ hold)] at hleft
      cases hleft
    · exact .inl ho
  | getObject | listPods => exact .inl ho
  | _ => cases orderly.aside

theorem Houses.answer (houses : Houses fit s) (orderly : Orderly fit c) :
    Houses fit (s.answer c).2 where
  calm := houses.calm.answer c
  free text object reach ho := by
    rcases found_after houses orderly reach ho with hold | ⟨m, hm, rfl, rfl⟩
    · exact houses.free text object reach hold
    · exact orderly.free m hm
  fits text object reach ho := by
    rcases found_after houses orderly reach ho with hold | ⟨m, hm, rfl, rfl⟩
    · exact houses.fits text object reach hold
    · exact orderly.fits m hm

/-- What a task may put in place. -/
def Task.applied : Task → List Manifest
  | .ensure config env ns child => child.portion config env ns
  | .remove .. => []

theorem orderly_of_task {task : Task} (fits : ∀ m ∈ task.applied, fit m.target.text m.object) :
    task.pass.Makes (Orderly fit) := by
  intro t c asks
  cases task with
  | ensure config env ns child =>
    have hupkeep := makes_ensure child t c asks
    refine ⟨by cases hupkeep <;> rfl, fun m hm => ?_, fun m hm => ?_⟩
    · subst hm
      exact (rendered_of_asks asks).not_held
    · subst hm
      exact fits m (applies_portion asks)
  | remove config env ns child =>
    rcases asks_removeOwned (asks_remove.1 asks) with ⟨_, rfl⟩ | ⟨_, _, _, rfl⟩
    · exact ⟨rfl, (fun _ => nomatch ·), (fun _ => nomatch ·)⟩
    · exact ⟨rfl, (fun _ => nomatch ·), (fun _ => nomatch ·)⟩

/-- A task keeps what is there fit if it puts nothing else in place. -/
theorem Houses.task (houses : Houses fit s) {task : Task}
    (fits : ∀ m ∈ task.applied, fit m.target.text m.object) : Houses fit (task.pass.after s) :=
  (orderly_of_task fits).preserves (fun _ _ hc hs => hs.answer hc) houses

theorem Houses.run (houses : Houses fit s) {tasks : List Task}
    (fits : ∀ task ∈ tasks, ∀ m ∈ task.applied, fit m.target.text m.object) :
    Houses fit (Task.run s tasks) := by
  induction tasks generalizing s with
  | nil => exact houses
  | cons task tasks ih =>
    obtain ⟨hfirst, hrest⟩ := List.forall_mem_cons.1 fits
    exact ih (houses.task hfirst) hrest

theorem legible_of_applied {task : Task} {m : Manifest} (h : m ∈ task.applied) :
    Legible m.object := by
  cases task with
  | ensure config env ns child =>
    exact (rendered_part (mem_parts.2 ⟨child, by cases child <;> decide, h⟩)).legible
  | remove => exact absurd h List.not_mem_nil

/-- Whatever the tasks are, the children that are there can be read and deleted. -/
theorem Sound.run (sound : Sound s) (tasks : List Task) : Sound (Task.run s tasks) :=
  Houses.run sound fun _ _ _ hm => legible_of_applied hm

/-! ## What a removal leaves -/

/-- An object names an identity, and that is not the record's. -/
def Foreign (env : Environment) (object : Json) : Prop :=
  ∃ stored, StoredObject.read? object = some stored ∧ env.isForeign stored.metadata = true

theorem remove_eq : child.remove config env ns =
    (request (.getObject (child.address config env ns))).bind
      (clear env (child.address config env ns)) :=
  removeOwned_eq env _

/-- Where there is no child, its removal changes nothing. -/
theorem remove_of_absent (calm : s.Faultless)
    (ho : s.object? (child.address config env ns).text = none) :
    (child.remove config env ns).outcome s = .done () ∧
      (child.remove config env ns).after s = s := by
  have hlook : (request (.getObject (child.address config env ns))).outcome s = .done none := by
    refine look_done.2 ⟨calm _, ?_⟩
    rw [Store.readObject, ho]
  rw [remove_eq, outcome_bind_done hlook, after_bind_done hlook, after_look (calm _)]
  exact ⟨rfl, rfl⟩

/-- A child that is there is deleted unless it names another identity. -/
theorem remove_of_present (calm : s.Faultless) {stored : StoredObject}
    (ho : s.object? (child.address config env ns).text = some object)
    (hread : StoredObject.read? object = some stored) :
    (child.remove config env ns).outcome s = .done () ∧
      (child.remove config env ns).after s = if env.isForeign stored.metadata then s
        else (s.deleteObject (child.address config env ns).text).2 := by
  have hlook : (request (.getObject (child.address config env ns))).outcome s =
      .done (some stored) := by
    refine look_done.2 ⟨calm _, ?_⟩
    rw [Store.readObject, ho]
    simp only [hread]
  rw [remove_eq, outcome_bind_done hlook, after_bind_done hlook, after_look (calm _)]
  cases hforeign : env.isForeign stored.metadata with
  | true =>
    rw [clear_of_foreign hforeign]
    exact ⟨rfl, rfl⟩
  | false =>
    rw [clear_of_own hforeign]
    exact withdraw_of_miss (calm _)

private theorem reachAll_address (config : Config) (env : Environment) (ns : String)
    (child : Child) : reachAll all (child.address config env ns).text :=
  Place.reachAll ⟨_, address_mem_homes child, rfl⟩

theorem foreign_iff {stored : StoredObject} (hread : StoredObject.read? object = some stored) :
    Foreign env object ↔ env.isForeign stored.metadata = true := by
  constructor
  · rintro ⟨other, hother, hforeign⟩
    rw [hread] at hother
    exact Option.some.inj hother ▸ hforeign
  · exact fun hforeign => ⟨stored, hread, hforeign⟩

theorem foreign_iff_namedBy (identified : env.metadata.uid = some uid) :
    Foreign env object ↔ ∃ other, other ≠ uid ∧ NamedBy other object := by
  constructor
  · rintro ⟨stored, hread, hforeign⟩
    obtain ⟨other, hmark, hne⟩ := Environment.isForeign_iff.1 hforeign
    exact ⟨other, fun heq => hne (identified.trans (congrArg some heq.symm)), stored, hread, hmark⟩
  · rintro ⟨other, hne, stored, hread, hmark⟩
    refine ⟨stored, hread, Environment.isForeign_iff.2 ⟨other, hmark, fun heq => hne ?_⟩⟩
    exact Option.some.inj (heq.symm.trans identified)

/-- What is found at the address of a child can be read, and it goes away when it is deleted. -/
def Removable (config : Config) (env : Environment) (ns : String) (s : Store) (child : Child) :
    Prop :=
  ∀ object, s.object? (child.address config env ns).text = some object →
    Legible object ∧ Store.objectIsHeld object = false

theorem Sound.removable (sound : Sound s) : Removable config env ns s child := fun object ho =>
  ⟨sound.fits _ object (reachAll_address config env ns child) ho,
    sound.free _ object (reachAll_address config env ns child) ho⟩

theorem remove_done (calm : s.Faultless) (removable : Removable config env ns s child) :
    (child.remove config env ns).outcome s = .done () := by
  cases ho : s.object? (child.address config env ns).text with
  | none => exact (remove_of_absent calm ho).1
  | some there =>
    obtain ⟨stored, hread⟩ := Option.isSome_iff_exists.1 (removable there ho).1
    exact (remove_of_present calm ho hread).1

/-- A removal takes away the child that it is about, unless that names another identity, and leaves
everything else. -/
theorem object?_remove (calm : s.Faultless) (removable : Removable config env ns s child)
    (text : String) (object : Json) :
    ((child.remove config env ns).after s).object? text = some object ↔
      s.object? text = some object ∧
        (text = (child.address config env ns).text → Foreign env object) := by
  cases ho : s.object? (child.address config env ns).text with
  | none =>
    rw [(remove_of_absent calm ho).2]
    refine ⟨fun hobject => ⟨hobject, fun htext => ?_⟩, And.left⟩
    rw [htext, ho] at hobject
    cases hobject
  | some there =>
    obtain ⟨hlegible, hfree⟩ := removable there ho
    obtain ⟨stored, hread⟩ := Option.isSome_iff_exists.1 hlegible
    rw [(remove_of_present calm ho hread).2]
    cases hforeign : env.isForeign stored.metadata with
    | true =>
      rw [if_pos rfl]
      refine ⟨fun hobject => ⟨hobject, fun htext => ?_⟩, And.left⟩
      rw [htext, ho] at hobject
      exact Option.some.inj hobject ▸ (foreign_iff hread).2 hforeign
    | false =>
      rw [if_neg Bool.false_ne_true, Store.object?_deleteObject]
      by_cases htext : text = (child.address config env ns).text
      · rw [if_pos htext, ho, Option.bind_some, hfree, if_neg Bool.false_ne_true]
        refine ⟨(fun h => nomatch h), fun ⟨hobject, hother⟩ => ?_⟩
        rw [htext, ho] at hobject
        obtain rfl := Option.some.inj hobject
        rw [(foreign_iff hread).1 (hother htext)] at hforeign
        cases hforeign
      · rw [if_neg htext]
        exact ⟨fun hobject => ⟨hobject, fun h => absurd h htext⟩, And.left⟩

theorem not_foreign_of_namedBy (identified : env.metadata.uid = some uid)
    (named : NamedBy uid object) : ¬Foreign env object := by
  intro hforeign
  obtain ⟨other, hne, stored, hread, hmark⟩ := (foreign_iff_namedBy identified).1 hforeign
  obtain ⟨stored', hread', hmark'⟩ := named
  obtain rfl := Option.some.inj (hread.symm.trans hread')
  exact hne (Option.some.inj (hmark.symm.trans hmark'))

/-- Another record of the same pull request, whose descriptor has the same name. -/
def rival : Environment :=
  { newcomer with metadata := { newcomer.metadata with name := some "copy", uid := some "u-9" } }

end Child
end PreviewControl
