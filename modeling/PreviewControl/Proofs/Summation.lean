import Mathlib.Logic.Relation
import PreviewControl.Cost
import PreviewControl.Proofs.NormalForm

/-!
# What the cost is summed from

The cost of an environment counts the requests that can be read, each by itself and in the order in
which they stand. Whatever else pods hold may come and go, and how containers are shared out among
pods makes no difference.
-/
namespace PreviewControl

/-! ## Pods as they are read -/

namespace Json

theorem lastOfEach_sublist {α : Type} (fs : List (String × α)) : (lastOfEach fs).Sublist fs := by
  induction fs with
  | nil => exact .slnil
  | cons f fs ih =>
    unfold lastOfEach
    split
    · exact ih.cons f
    · exact ih.cons_cons f

theorem nodup_lastOfEach {α : Type} (fs : List (String × α)) :
    ((lastOfEach fs).map (·.1)).Nodup := by
  induction fs with
  | nil => exact List.nodup_nil
  | cons f fs ih =>
    unfold lastOfEach
    split
    · exact ih
    · next last =>
      refine List.nodup_cons.2 ⟨fun mem => last ?_, ih⟩
      obtain ⟨g, hg, hname⟩ := List.mem_map.1 mem
      exact List.any_eq_true.2 ⟨g, (lastOfEach_sublist fs).subset hg, beq_iff_eq.2 hname⟩

theorem keys_textMap? {fields : List (String × Json)} {texts : List (String × String)}
    (h : (obj fields).textMap? = some texts) : texts.map (·.1) = fields.map (·.1) := by
  change fields.mapM (fun f => f.2.text?.map (f.1, ·)) = some texts at h
  induction fields generalizing texts with
  | nil =>
    cases h
    rfl
  | cons f fields ih =>
    rw [List.mapM_cons] at h
    obtain ⟨first, hfirst, h⟩ := Option.bind_eq_some_iff.1 h
    obtain ⟨rest, hrest, h⟩ := Option.bind_eq_some_iff.1 h
    cases h
    obtain ⟨text, _, rfl⟩ := Option.map_eq_some_iff.1 hfirst
    exact congrArg (f.1 :: ·) (ih hrest)

theorem follow_null (path : List String) : null.follow path = null := by
  induction path with
  | nil => rfl
  | cons key path ih => exact ih

/-- A path that leads to something leads over a field. -/
theorem get?_of_follow {key : String} {path : List String} {j v : Json}
    (h : j.follow (key :: path) = v) (hv : v ≠ null) :
    ∃ u, j.get? key = some u ∧ u.follow path = v := by
  rw [follow] at h
  cases hu : j.get? key with
  | none =>
    rw [hu, Option.getD_none, follow_null] at h
    exact absurd h.symm hv
  | some u =>
    rw [hu] at h
    exact ⟨u, rfl, h⟩

end Json

/-- No resource is requested twice. -/
def Container.Distinct (c : Container) : Prop :=
  ∀ given, c.requests = some given → (given.map Prod.fst).Nodup

namespace Pod

open Schema

/-- The requests of a container are the entries of an object, of which no two have one name. -/
theorem distinct_containerOf {j : Json} (normal : Form.container.Normal j) :
    (containerOf j).Distinct := by
  intro given hgiven
  have hmap : (j.follow ["resources", "requests"]).textMap? = some given := hgiven
  have hne : j.follow ["resources", "requests"] ≠ .null := by
    intro h
    rw [h] at hmap
    cases hmap
  obtain ⟨resources, hresources, hfollow⟩ := Json.get?_of_follow rfl hne
  obtain ⟨requests, hrequests, hend⟩ := Json.get?_of_follow hfollow hne
  obtain hneeds | ⟨hreq, _⟩ := normal.get? (s := Form.resourceNeeds) rfl hresources
  · obtain hentries | ⟨hreq, _⟩ := hneeds.get? (s := .entries .text) rfl hrequests
    · obtain ⟨source, h⟩ := hentries
      rw [Schema.normalize] at h
      obtain ⟨fields, _, h⟩ := Option.bind_eq_some_iff.1 h
      obtain ⟨out, _, rfl⟩ := Option.map_eq_some_iff.1 h
      rw [← hend] at hmap
      rw [Json.keys_textMap? hmap]
      exact Json.nodup_lastOfEach out
    · cases hreq
  · cases hreq

/-- The containers of a pod in normal form are in normal form themselves. -/
theorem normal_containers {j : Json} {items : List Json} (normal : Form.pod.Normal j)
    (h : j.follow ["spec", "containers"] = .arr items) :
    ∀ item ∈ items, Form.container.Normal item := by
  obtain ⟨spec, hspec, hfollow⟩ := Json.get?_of_follow h Json.noConfusion
  obtain ⟨containers, hcontainers, rfl⟩ := Json.get?_of_follow hfollow Json.noConfusion
  obtain hnormal | ⟨hreq, _⟩ :=
    normal.get?_kinded (s := Form.podSpec) rfl (by decide) (by decide) hspec
  · obtain hitems | ⟨_, hdefault⟩ := hnormal.get? (s := .items Form.container) rfl hcontainers
    · obtain ⟨source, h⟩ := hitems
      rw [Schema.normalize] at h
      obtain ⟨sources, _, h⟩ := Option.bind_eq_some_iff.1 h
      obtain ⟨out, hout, heq⟩ := Option.map_eq_some_iff.1 h
      cases heq
      intro item hitem
      obtain ⟨given, _, hgiven⟩ := of_mem_mapM hout hitem
      exact ⟨given, hgiven⟩
    · cases hdefault
      exact List.forall_mem_nil _
  · cases hreq

theorem distinct_of_read? {j : Json} {pod : Pod} (h : read? j = some pod) :
    ∀ c ∈ pod.containers.getD [], c.Distinct := by
  unfold read? at h
  obtain ⟨normal, hnormal, h⟩ := Option.bind_eq_some_iff.1 h
  cases h
  cases hitems : normal.follow ["spec", "containers"] with
  | arr items =>
    intro c hc
    obtain ⟨item, hitem, rfl⟩ := List.mem_map.1 hc
    exact distinct_containerOf (normal_containers ⟨j, hnormal⟩ hitems item hitem)
  | _ => exact List.forall_mem_nil _

end Pod

namespace Requests

/-! ## Sums of amounts -/

variable {c : Container} {given more : List (String × String)}
  {resource text : String} {bytes cores : Binary64}

/-- All requests of containers, in the order in which they stand. -/
def stated (containers : List Container) : List (String × String) :=
  containers.flatMap (·.requests.getD [])

/-- The amounts of a resource that are requested and can be read, in base units. -/
def amounts (resource : String) (requests : List (String × String)) : List Binary64 :=
  requests.filterMap fun r => if r.1 = resource then Quantity.read? r.2 else none

/-- The unit in which memory is counted. -/
def gigabyte : Binary64 := .ofNat (pow2 30)

/-- The sums after more requests: every amount that can be read is added to those of its resource,
one after the other. -/
def plusAll (total : Requests) (requests : List (String × String)) : Requests where
  cpuCores := (amounts "cpu" requests).foldl (· + ·) total.cpuCores
  memoryGb := (amounts "memory" requests).foldl (fun gb bytes => gb + bytes / gigabyte)
    total.memoryGb

theorem amounts_append (resource : String) (given more : List (String × String)) :
    amounts resource (given ++ more) = amounts resource given ++ amounts resource more :=
  List.filterMap_append

theorem plusAll_append (total : Requests) (given more : List (String × String)) :
    total.plusAll (given ++ more) = (total.plusAll given).plusAll more := by
  simp only [plusAll, amounts_append, List.foldl_append]

theorem amounts_cons (resource : String) (r : String × String) (given : List (String × String)) :
    amounts resource (r :: given) =
      (if r.1 = resource then Quantity.read? r.2 else none).toList ++ amounts resource given := by
  rw [amounts, List.filterMap_cons]
  split
  · next h => rw [h]; rfl
  · next h => rw [h]; rfl

theorem amounts_of_not_mem (absent : resource ∉ given.map Prod.fst) :
    amounts resource given = [] := by
  refine List.filterMap_eq_nil_iff.2 fun r hr => if_neg fun h => absent ?_
  exact List.mem_map.2 ⟨r, hr, h⟩

/-- Where no resource is requested twice, the request that is looked up is the only one. -/
theorem amounts_eq_toList (distinct : (given.map Prod.fst).Nodup) (resource : String) :
    amounts resource given = ((given.lookup resource).bind Quantity.read?).toList := by
  induction given with
  | nil => rfl
  | cons r given ih =>
    obtain ⟨hr, hgiven⟩ := List.nodup_cons.1 distinct
    rw [amounts_cons, lookup_cons_if]
    by_cases h : r.1 = resource
    · subst h
      rw [if_pos rfl, if_pos rfl, amounts_of_not_mem hr, List.append_nil]
      rfl
    · rw [if_neg h, if_neg (Ne.symm h), ih hgiven]
      rfl

theorem plus_eq_foldl (x : Binary64) (amount : Option Binary64) :
    plus x amount = amount.toList.foldl (· + ·) x := by
  cases amount <;> rfl

/-- A container adds all of its requests. -/
theorem add_some (total : Requests) (distinct : (given.map Prod.fst).Nodup) :
    add total ⟨some given⟩ = total.plusAll given := by
  have hamounts := amounts_eq_toList distinct
  have hcores : plus total.cpuCores (amount? ⟨some given⟩ "cpu" Quantity.cores?) =
      (amounts "cpu" given).foldl (· + ·) total.cpuCores := by
    rw [plus_eq_foldl, hamounts]
    rfl
  have hread : amount? ⟨some given⟩ "memory" Quantity.gigabytes? =
      ((given.lookup "memory").bind Quantity.read?).map (· / gigabyte) := by
    show (given.lookup "memory").bind Quantity.gigabytes? = _
    cases given.lookup "memory" <;> rfl
  have hmemory : plus total.memoryGb (amount? ⟨some given⟩ "memory" Quantity.gigabytes?) =
      (amounts "memory" given).foldl (fun gb bytes => gb + bytes / gigabyte) total.memoryGb := by
    rw [plus_eq_foldl, hamounts, hread, Option.toList_map, List.foldl_map]
  rw [add, hcores, hmemory]
  rfl

theorem add_eq_plusAll (total : Requests) (distinct : c.Distinct) :
    add total c = total.plusAll (c.requests.getD []) := by
  obtain ⟨given | given⟩ := c
  · rfl
  · exact add_some total (distinct given rfl)

theorem foldl_add_eq_plusAll (total : Requests) {containers : List Container}
    (distinct : ∀ c ∈ containers, c.Distinct) :
    containers.foldl add total = total.plusAll (stated containers) := by
  induction containers generalizing total with
  | nil => rfl
  | cons c containers ih =>
    obtain ⟨hc, hcontainers⟩ := List.forall_mem_cons.1 distinct
    rw [List.foldl_cons, add_eq_plusAll total hc, ih _ hcontainers, ← plusAll_append]
    rfl

/-! ## One resource alone -/

/-- Of a resource nothing can be read: it is not requested, or what is requested is no quantity. -/
def Unreadable (resource : String) (given : List (String × String)) : Prop :=
  ∀ text, (resource, text) ∈ given → Quantity.read? text = none

theorem amounts_of_unreadable (unreadable : Unreadable resource given) :
    amounts resource given = [] := by
  refine List.filterMap_eq_nil_iff.2 fun r hr => ?_
  split
  · next h =>
    subst h
    exact unreadable r.2 hr
  · rfl

theorem amounts_of_mem (distinct : (given.map Prod.fst).Nodup) (mem : (resource, text) ∈ given)
    (hread : Quantity.read? text = some bytes) : amounts resource given = [bytes] := by
  have hlookup : given.lookup resource = some text := lookup_of_mem distinct mem
  rw [amounts_eq_toList distinct, hlookup, Option.bind_some, hread]
  rfl

/-- A container of whose CPU nothing can be read still adds its memory. -/
theorem add_of_memory (total : Requests) (distinct : (given.map Prod.fst).Nodup)
    (unreadable : Unreadable "cpu" given) (mem : ("memory", text) ∈ given)
    (hread : Quantity.read? text = some bytes) :
    add total ⟨some given⟩ = { total with memoryGb := total.memoryGb + bytes / gigabyte } := by
  rw [add_some total distinct, plusAll, amounts_of_unreadable unreadable,
    amounts_of_mem distinct mem hread]
  rfl

/-- A container of whose memory nothing can be read still adds its CPU. -/
theorem add_of_cpu (total : Requests) (distinct : (given.map Prod.fst).Nodup)
    (unreadable : Unreadable "memory" given) (mem : ("cpu", text) ∈ given)
    (hread : Quantity.read? text = some cores) :
    add total ⟨some given⟩ = { total with cpuCores := total.cpuCores + cores } := by
  rw [add_some total distinct, plusAll, amounts_of_unreadable unreadable,
    amounts_of_mem distinct mem hread]
  rfl

/-! ## What counts nothing -/

/-- A request that counts nothing: of CPU or memory an amount that cannot be read, or any amount of
another resource. -/
def Unusable (r : String × String) : Prop :=
  r.1 = "cpu" ∨ r.1 = "memory" → Quantity.read? r.2 = none

/-- The second list has one thing more that counts nothing, or the containers of a pod of the first
one shared out between two. -/
inductive Clutter : List Pod → List Pod → Prop where
  /-- A pod without a spec, or without containers. -/
  | pod (front back : List Pod) {pod : Pod} (empty : pod.containers.getD [] = []) :
    Clutter (front ++ back) (front ++ pod :: back)
  /-- A container without resources, or without requests. -/
  | container (front back : List Pod) (name : Option String) (before after : List Container)
      {c : Container} (empty : c.requests.getD [] = []) :
    Clutter (front ++ ⟨name, some (before ++ after)⟩ :: back)
      (front ++ ⟨name, some (before ++ c :: after)⟩ :: back)
  /-- A request of a resource that its container does not request yet. -/
  | request (front back : List Pod) (name : Option String) (before after : List Container)
      (given more : List (String × String)) {r : String × String}
      (fresh : r.1 ∉ (given ++ more).map Prod.fst) (unusable : Unusable r) :
    Clutter (front ++ ⟨name, some (before ++ ⟨some (given ++ more)⟩ :: after)⟩ :: back)
      (front ++ ⟨name, some (before ++ ⟨some (given ++ r :: more)⟩ :: after)⟩ :: back)
  /-- A border between two pods. -/
  | parted (front back : List Pod) (whole first second : Option String)
      (before after : List Container) :
    Clutter (front ++ ⟨whole, some (before ++ after)⟩ :: back)
      (front ++ ⟨first, some before⟩ :: ⟨second, some after⟩ :: back)

variable {pods pods' : List Pod} {r : String × String}

theorem add_of_empty (total : Requests) (empty : c.requests.getD [] = []) :
    add total c = total := by
  obtain ⟨given | given⟩ := c
  · rfl
  · obtain rfl : given = [] := empty
    rfl

/-- A new request changes nothing that is looked up, but under its own name. -/
theorem amount?_insert {read : String → Option Binary64}
    (fresh : r.1 ∉ (given ++ more).map Prod.fst)
    (unreadable : r.1 = resource → read r.2 = none) :
    amount? ⟨some (given ++ r :: more)⟩ resource read =
      amount? ⟨some (given ++ more)⟩ resource read := by
  show ((given ++ r :: more).lookup resource).bind read =
    ((given ++ more).lookup resource).bind read
  by_cases h : resource = r.1
  · subst h
    rw [List.map_append, List.mem_append, not_or] at fresh
    have hgiven : given.lookup r.1 = none := lookup_of_not_mem fresh.1
    have hmore : more.lookup r.1 = none := lookup_of_not_mem fresh.2
    rw [List.lookup_append, List.lookup_append, hgiven, hmore, List.lookup_cons_self]
    exact unreadable rfl
  · rw [List.lookup_append, List.lookup_append, lookup_cons_if, if_neg h]

theorem add_insert (total : Requests) (fresh : r.1 ∉ (given ++ more).map Prod.fst)
    (unusable : Unusable r) :
    add total ⟨some (given ++ r :: more)⟩ = add total ⟨some (given ++ more)⟩ := by
  have hcores : r.1 = "cpu" → Quantity.cores? r.2 = none := fun h => unusable (.inl h)
  have hmemory : r.1 = "memory" → Quantity.gigabytes? r.2 = none := by
    intro h
    rw [Quantity.gigabytes?, unusable (.inr h), Option.map_none]
  rw [add, add, amount?_insert fresh hcores, amount?_insert fresh hmemory]

theorem containersOf_cons (pod : Pod) (pods : List Pod) :
    containersOf (pod :: pods) = pod.containers.getD [] ++ containersOf pods := List.flatMap_cons

theorem containersOf_append (pods more : List Pod) :
    containersOf (pods ++ more) = containersOf pods ++ containersOf more := List.flatMap_append

theorem Clutter.sum_eq (h : Clutter pods pods') : sum pods = sum pods' := by
  unfold sum
  cases h with
  | pod front back empty =>
    rw [containersOf_append, containersOf_append, containersOf_cons, empty, List.nil_append]
  | container front back name before after empty =>
    simp only [containersOf_append, containersOf_cons, Option.getD_some, List.foldl_append,
      List.foldl_cons, add_of_empty _ empty]
  | request front back name before after given more fresh unusable =>
    simp only [containersOf_append, containersOf_cons, Option.getD_some, List.foldl_append,
      List.foldl_cons, add_insert _ fresh unusable]
  | parted front back whole first second before after =>
    simp only [containersOf_append, containersOf_cons, Option.getD_some, List.append_assoc]

theorem sum_eq_of_eqvGen (h : Relation.EqvGen Clutter pods pods') : sum pods = sum pods' := by
  induction h with
  | rel _ _ h => exact h.sum_eq
  | refl => rfl
  | symm _ _ _ ih => exact ih.symm
  | trans _ _ _ _ _ ih ih' => exact ih.trans ih'

/-! ## Grouping -/

theorem Clutter.cons (pod : Pod) (h : Clutter pods pods') :
    Clutter (pod :: pods) (pod :: pods') := by
  cases h with
  | pod front back empty => exact .pod (pod :: front) back empty
  | container front back name before after empty =>
    exact .container (pod :: front) back name before after empty
  | request front back name before after given more fresh unusable =>
    exact .request (pod :: front) back name before after given more fresh unusable
  | parted front back whole first second before after =>
    exact .parted (pod :: front) back whole first second before after

theorem eqvGen_cons (pod : Pod) (h : Relation.EqvGen Clutter pods pods') :
    Relation.EqvGen Clutter (pod :: pods) (pod :: pods') := by
  induction h with
  | rel _ _ h => exact .rel _ _ (h.cons pod)
  | refl => exact .refl _
  | symm _ _ _ ih => exact .symm _ _ ih
  | trans _ _ _ _ _ ih ih' => exact .trans _ _ _ ih ih'

/-- All containers can be brought into one pod. -/
theorem gathered (pods : List Pod) :
    Relation.EqvGen Clutter pods [⟨none, some (containersOf pods)⟩] := by
  induction pods with
  | nil => exact .rel _ _ (.pod [] [] rfl)
  | cons pod pods ih =>
    have hfirst := eqvGen_cons pod ih
    obtain ⟨name, containers | containers⟩ := pod
    · have hgone : Clutter [⟨none, some (containersOf pods)⟩]
          [⟨name, none⟩, ⟨none, some (containersOf pods)⟩] := .pod [] _ rfl
      exact hfirst.trans _ _ _ (.symm _ _ (.rel _ _ hgone))
    · have hjoined : Clutter [⟨none, some (containers ++ containersOf pods)⟩]
          [⟨name, some containers⟩, ⟨none, some (containersOf pods)⟩] :=
        .parted [] [] none name none containers (containersOf pods)
      exact hfirst.trans _ _ _ (.symm _ _ (.rel _ _ hjoined))

theorem eqvGen_of_containersOf (h : containersOf pods = containersOf pods') :
    Relation.EqvGen Clutter pods pods' := by
  have hpods := gathered pods
  rw [h] at hpods
  exact hpods.trans _ _ _ (.symm _ _ (gathered pods'))

/-- What counts nothing may be put into a list of pods or taken out of it at any place and any
number of times, and containers may be grouped into pods in any way that keeps their order: the sums
stay the same to the last bit, and with them every estimate. For the sums are those of all requests
that can be read, each added in its turn to those of its resource. So a container of whose CPU
nothing can be read adds its memory nonetheless, and the other way round. Only no resource may be
requested twice by a container, and none is in a pod that has been read. -/
theorem unusable_costs_nothing (pods pods' : List Pod) :
    (Relation.EqvGen Clutter pods pods' → sum pods = sum pods' ∧
      ∀ ttl rates, CostEstimate.of pods ttl rates = CostEstimate.of pods' ttl rates) ∧
    (containersOf pods = containersOf pods' → Relation.EqvGen Clutter pods pods') ∧
    ((∀ c ∈ containersOf pods, c.Distinct) →
      sum pods = plusAll {} (stated (containersOf pods)) ∧
      ∀ before given after, containersOf pods = before ++ ⟨some given⟩ :: after →
        let sofar := before.foldl add {}
        (∀ text bytes, Unreadable "cpu" given → ("memory", text) ∈ given →
          Quantity.read? text = some bytes → sum pods =
            after.foldl add { sofar with memoryGb := sofar.memoryGb + bytes / gigabyte }) ∧
        ∀ text cores, Unreadable "memory" given → ("cpu", text) ∈ given →
          Quantity.read? text = some cores → sum pods =
            after.foldl add { sofar with cpuCores := sofar.cpuCores + cores }) ∧
    ∀ j pod, Pod.read? j = some pod → ∀ c ∈ pod.containers.getD [], c.Distinct := by
  refine ⟨fun same => ?_, eqvGen_of_containersOf, fun distinct => ?_,
    fun j pod h => Pod.distinct_of_read? h⟩
  · have hsum := sum_eq_of_eqvGen same
    refine ⟨hsum, fun ttl rates => ?_⟩
    rw [CostEstimate.of, CostEstimate.of, hsum]
  · refine ⟨foldl_add_eq_plusAll {} distinct, fun before given after hall => ?_⟩
    have hgiven : (given.map Prod.fst).Nodup := distinct ⟨some given⟩ (by simp [hall]) given rfl
    have hsum : sum pods = after.foldl add (add (before.foldl add {}) ⟨some given⟩) := by
      rw [sum, hall, List.foldl_append, List.foldl_cons]
    constructor
    · intro text bytes unreadable mem hread
      rw [hsum, add_of_memory _ hgiven unreadable mem hread]
    · intro text cores unreadable mem hread
      rw [hsum, add_of_cpu _ hgiven unreadable mem hread]

/-- A container as it is reported, with what is said of its resources. -/
def reported (resources : List (String × Json)) : Json :=
  .obj (("name", .str "app") :: resources)

/-- Requests of which only the memory can be read. -/
def memoryAlone : List (String × String) := [("cpu", "lots"), ("memory", "1Gi")]

/-- Requests of which only the CPU can be read. -/
def cpuAlone : List (String × String) := [("cpu", "500m"), ("memory", "much")]

/-- A pod without a spec, then one with two containers that request nothing. -/
def litter : List Json :=
  [.obj [("metadata", .obj [("name", .str "bare")])],
   .obj [("metadata", .obj [("name", .str "shop")]),
     ("spec", .obj [("containers", .arr [reported [], reported [("resources", .obj [])],
       reported [("resources", .obj [("requests", .textMap memoryAlone)])]])])],
   .obj [("metadata", .obj [("name", .str "data")]),
     ("spec", .obj [("containers", .arr
       [reported [("resources", .obj [("requests", .textMap cpuAlone)])]])])]]

/-- The pods of the shop and of its data. -/
def shopAndData (shop data : List Container) : List Pod :=
  [⟨some "shop", some shop⟩, ⟨some "data", some data⟩]

/-- The pods that are read. -/
def littered : List Pod :=
  ⟨some "bare", none⟩ :: shopAndData [⟨none⟩, ⟨none⟩, ⟨some memoryAlone⟩] [⟨some cpuAlone⟩]

/-- One pod with what counts of them. -/
def tidied : List Pod :=
  [⟨some "shop", some [⟨some [("memory", "1Gi")]⟩, ⟨some [("cpu", "500m")]⟩]⟩]

theorem eqvGen_littered : Relation.EqvGen Clutter tidied littered := by
  have hparted : Clutter tidied
      (shopAndData [⟨some [("memory", "1Gi")]⟩] [⟨some [("cpu", "500m")]⟩]) :=
    .parted [] [] _ _ _ [_] [_]
  have hcpu : Clutter (shopAndData [⟨some [("memory", "1Gi")]⟩] [⟨some [("cpu", "500m")]⟩])
      (shopAndData [⟨some memoryAlone⟩] [⟨some [("cpu", "500m")]⟩]) :=
    .request [] [_] _ [] [] [] [_] (by decide) fun _ => by decide +kernel
  have hmemory : Clutter (shopAndData [⟨some memoryAlone⟩] [⟨some [("cpu", "500m")]⟩])
      (shopAndData [⟨some memoryAlone⟩] [⟨some cpuAlone⟩]) :=
    .request [_] [] _ [] [] [_] [] (by decide) fun _ => by decide +kernel
  have hone : Clutter (shopAndData [⟨some memoryAlone⟩] [⟨some cpuAlone⟩])
      (shopAndData [⟨none⟩, ⟨some memoryAlone⟩] [⟨some cpuAlone⟩]) :=
    .container [] [_] _ [] [_] rfl
  have htwo : Clutter (shopAndData [⟨none⟩, ⟨some memoryAlone⟩] [⟨some cpuAlone⟩])
      (shopAndData [⟨none⟩, ⟨none⟩, ⟨some memoryAlone⟩] [⟨some cpuAlone⟩]) :=
    .container [] [_] _ [] [_, _] rfl
  have hbare : Clutter (shopAndData [⟨none⟩, ⟨none⟩, ⟨some memoryAlone⟩] [⟨some cpuAlone⟩])
      littered := .pod [] _ rfl
  have hread := (Relation.EqvGen.rel _ _ hparted).trans _ _ _ (.trans _ _ _ (.rel _ _ hcpu)
    (.rel _ _ hmemory))
  have hempty := (Relation.EqvGen.rel _ _ hone).trans _ _ _ (.trans _ _ _ (.rel _ _ htwo)
    (.rel _ _ hbare))
  exact hread.trans _ _ _ hempty

/-- Half a core and a gigabyte are paid for, and nothing else. -/
theorem unusable_costs_nothing_littered : litter.mapM Pod.read? = some littered ∧
    Relation.EqvGen Clutter tidied littered ∧ sum tidied = sum littered ∧
    (∀ ttl rates, CostEstimate.of tidied ttl rates = CostEstimate.of littered ttl rates) ∧
    sum littered = plusAll {} (memoryAlone ++ cpuAlone) ∧
    sum littered = add { memoryGb := .ofNat 0 + .ofNat (pow2 30) / gigabyte } ⟨some cpuAlone⟩ ∧
    CostEstimate.of littered (.ofNat 4) .standard = ⟨"USD", "0.0250", "0.1000"⟩ := by
  have hread : litter.mapM Pod.read? = some littered := by decide +kernel
  have hdistinct : ∀ c ∈ containersOf littered, c.Distinct := by
    intro c hc
    obtain ⟨pod, hpod, hc⟩ := List.mem_flatMap.1 hc
    obtain ⟨j, _, hj⟩ := of_mem_mapM hread hpod
    exact (unusable_costs_nothing [] []).2.2.2 j pod hj c hc
  obtain ⟨same, _, _⟩ := unusable_costs_nothing tidied littered
  obtain ⟨_, _, counted, _⟩ := unusable_costs_nothing littered tidied
  obtain ⟨hall, hsingle⟩ := counted hdistinct
  obtain ⟨hsum, hestimate⟩ := same eqvGen_littered
  have hcpu : Unreadable "cpu" memoryAlone := by
    intro text mem
    obtain rfl : text = "lots" := by simpa [memoryAlone] using mem
    decide +kernel
  refine ⟨hread, eqvGen_littered, hsum, hestimate, hall, ?_, by decide +kernel⟩
  obtain ⟨hmemory, _⟩ := hsingle [⟨none⟩, ⟨none⟩] memoryAlone [⟨some cpuAlone⟩] rfl
  exact hmemory "1Gi" (.ofNat (pow2 30)) hcpu (by decide) (by decide +kernel)

end Requests
end PreviewControl
