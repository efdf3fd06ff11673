import Mathlib.Data.List.Sort
import PreviewControl.Child.Ingress

/-!
# The route table

The routes of the ingress: one for each distinct service, in an order that depends on nothing but
which services there are. No path begins with the path of a route in front of it, so whoever takes
the first path that a request begins with takes the longest one.
-/
namespace PreviewControl.Child.Route

variable {a b r : Route} {rs : List Route} {services services' : List String}
  {frontend request : String}

/-! ## The order of the routes -/

theorem precedes_iff : precedes a b = true ↔
    a.path ≠ "/" ∧ b.path = "/" ∨ (a.path = "/" ↔ b.path = "/") ∧
      (b.path.utf8ByteSize < a.path.utf8ByteSize ∨
        a.path.utf8ByteSize = b.path.utf8ByteSize ∧ a.path ≤ b.path) := by
  unfold precedes
  by_cases ha : a.path = "/" <;> by_cases hb : b.path = "/" <;>
    by_cases hs : a.path.utf8ByteSize = b.path.utf8ByteSize <;> simp [ha, hb, hs]

theorem precedes_total (a b : Route) : (precedes a b || precedes b a) = true := by
  rw [Bool.or_eq_true, precedes_iff, precedes_iff]
  have htotal : a.path ≤ b.path ∨ b.path ≤ a.path := Std.le_total
  grind

theorem precedes_trans (a b c : Route) (hab : precedes a b = true) (hbc : precedes b c = true) :
    precedes a c = true := by
  rw [precedes_iff] at hab hbc ⊢
  have htrans : a.path ≤ b.path → b.path ≤ c.path → a.path ≤ c.path := Std.le_trans
  grind

theorem path_eq_of_precedes (hab : precedes a b = true) (hba : precedes b a = true) :
    a.path = b.path := by
  rw [precedes_iff] at hab hba
  have hanti : a.path ≤ b.path → b.path ≤ a.path → a.path = b.path := Std.le_antisymm
  grind

/-- `a` has to stand before `b`: the order allows it, and their paths differ. -/
def Before (a b : Route) : Prop := precedes a b = true ∧ a.path ≠ b.path

instance : Std.Irrefl Before := ⟨fun _ h => h.2 rfl⟩

instance : Std.Antisymm Before :=
  ⟨fun _ _ hab hba => absurd (path_eq_of_precedes hab.1 hba.1) hab.2⟩

/-! ## What is in the table -/

theorem mem_of_mem_firsts (h : r ∈ firsts rs) : r ∈ rs := by
  induction rs with
  | nil => exact h
  | cons x xs ih =>
    rcases List.mem_cons.1 h with rfl | h
    · exact List.mem_cons_self
    · exact List.mem_cons_of_mem _ (ih (List.mem_filter.1 h).1)

/-- Every path keeps one route. -/
theorem exists_mem_firsts (h : r ∈ rs) : ∃ first ∈ firsts rs, first.path = r.path := by
  induction rs with
  | nil => cases h
  | cons x xs ih =>
    by_cases hx : x.path = r.path
    · exact ⟨x, List.mem_cons_self, hx⟩
    · rcases List.mem_cons.1 h with rfl | h
      · exact absurd rfl hx
      · obtain ⟨first, hfirst, hpath⟩ := ih h
        refine ⟨first, List.mem_cons_of_mem _ (List.mem_filter.2 ⟨hfirst, ?_⟩), hpath⟩
        rw [hpath]
        exact bne_iff_ne.2 (Ne.symm hx)

theorem pairwise_firsts (rs : List Route) : (firsts rs).Pairwise (·.path ≠ ·.path) := by
  induction rs with
  | nil => exact .nil
  | cons x xs ih =>
    refine List.pairwise_cons.2 ⟨fun r hr => ?_, List.Pairwise.filter _ ih⟩
    exact (bne_iff_ne.1 (List.mem_filter.1 hr).2).symm

theorem pairwise_table (services : List String) (frontend : String) :
    (table services frontend).Pairwise Before := by
  have hsorted : (table services frontend).Pairwise (precedes · · = true) :=
    List.pairwise_mergeSort precedes_trans precedes_total _
  have hpaths : (table services frontend).Pairwise (·.path ≠ ·.path) :=
    (List.mergeSort_perm _ _).pairwise_iff (fun h => Ne.symm h) |>.2 (pairwise_firsts _)
  exact hsorted.and hpaths

theorem exists_of_mem_table (h : r ∈ table services frontend) :
    ∃ service ∈ services, of frontend service = r :=
  List.mem_map.1 (mem_of_mem_firsts (List.mem_mergeSort.1 h))

theorem pathOf_eq_root (frontend : String) {service : String} (h : service ≠ "") :
    pathOf frontend service = "/" ↔ service = frontend := by
  unfold pathOf
  split
  · simp [*]
  · have hpath : "/" ++ service ≠ "/" := fun heq => h (by simpa using congrArg String.toList heq)
    simp [*]

/-- The path tells the service, unless its name is empty. -/
theorem pathOf_inj {service service' : String} (h : service ≠ "") (h' : service' ≠ "")
    (heq : pathOf frontend service = pathOf frontend service') : service = service' := by
  by_cases hs : service = frontend
  · have hroot := (pathOf_eq_root frontend h).2 hs
    exact hs.trans ((pathOf_eq_root frontend h').1 (heq ▸ hroot)).symm
  · have hs' : service' ≠ frontend := fun hs' =>
      hs ((pathOf_eq_root frontend h).1 (heq ▸ (pathOf_eq_root frontend h').2 hs'))
    rw [pathOf, pathOf, if_neg hs, if_neg hs'] at heq
    exact String.append_right_inj _ |>.1 heq

theorem mem_table (named : ∀ service ∈ services, service ≠ "") :
    r ∈ table services frontend ↔ ∃ service ∈ services, of frontend service = r := by
  refine ⟨exists_of_mem_table, ?_⟩
  rintro ⟨service, hservice, rfl⟩
  obtain ⟨first, hfirst, hpath⟩ := exists_mem_firsts
    (List.mem_map_of_mem (f := of frontend) hservice)
  obtain ⟨service', hservice', rfl⟩ := List.mem_map.1 (mem_of_mem_firsts hfirst)
  obtain rfl : service' = service := pathOf_inj (named _ hservice') (named _ hservice) hpath
  exact List.mem_mergeSort.2 hfirst

/-- The table is known from which services there are. -/
theorem table_congr (named : ∀ service ∈ services, service ≠ "")
    (same : ∀ service, service ∈ services' ↔ service ∈ services) :
    table services' frontend = table services frontend := by
  have named' : ∀ service ∈ services', service ≠ "" := fun s hs => named s ((same s).1 hs)
  refine (pairwise_table _ _).eq_of_mem_iff (pairwise_table _ _) fun r => ?_
  rw [mem_table named, mem_table named']
  exact exists_congr fun service => and_congr_left fun _ => same service

/-! ## Requests -/

theorem path_ne_empty (h : r ∈ table services frontend) : r.path ≠ "" := by
  obtain ⟨service, _, rfl⟩ := exists_of_mem_table h
  show pathOf frontend service ≠ ""
  unfold pathOf
  split
  · decide
  · intro heq
    simpa using congrArg String.toList heq

theorem prefix_of_prefix_root {p : String} (h : p.toList <+: "/".toList) : p = "" ∨ p = "/" := by
  rcases List.prefix_cons_iff.1 h with h | ⟨rest, h, hrest⟩
  · exact .inl (String.toList_inj.1 h)
  · rw [List.prefix_nil.1 hrest] at h
    exact .inr (String.toList_inj.1 h)

theorem eq_of_prefix_of_size {p q : String} (h : p.toList <+: q.toList)
    (hsize : q.utf8ByteSize ≤ p.utf8ByteSize) : p = q := by
  obtain ⟨rest, h⟩ := h
  obtain rfl : q = p ++ String.ofList rest :=
    String.toList_inj.1 (by rw [String.toList_append, String.toList_ofList, h])
  rw [String.utf8ByteSize_append] at hsize
  have hrest : String.ofList rest = "" := String.utf8ByteSize_eq_zero_iff.1 (by omega)
  rw [hrest, String.append_empty]

/-- What stands in front has a path that the path behind it does not begin with. -/
theorem not_prefix_of_before (h : Before a b) (named : a.path ≠ "") :
    ¬a.path.toList <+: b.path.toList := by
  intro hbegins
  rcases precedes_iff.1 h.1 with ⟨ha, hb⟩ | ⟨_, hsize⟩
  · rw [hb] at hbegins
    exact (prefix_of_prefix_root hbegins).elim named ha
  · have hle : b.path.utf8ByteSize ≤ a.path.utf8ByteSize := by omega
    exact h.2 (eq_of_prefix_of_size hbegins hle)

theorem unshadowed (services : List String) (frontend : String) :
    (table services frontend).Pairwise fun a b => ¬a.path.toList <+: b.path.toList :=
  (pairwise_table services frontend).imp_of_mem fun ha _ h =>
    not_prefix_of_before h (path_ne_empty ha)

/-- A request for a path that begins with the path of the route. -/
def Serves (r : Route) (request : String) : Prop := r.path.toList <+: request.toList

instance (request : String) : DecidablePred (Serves · request) :=
  fun r => inferInstanceAs (Decidable (r.path.toList <+: request.toList))

/-- Of the routes that serve the request, the one whose path is longer than all others. -/
structure Longest (rs : List Route) (request : String) (r : Route) : Prop where
  listed : r ∈ rs
  serves : r.Serves request
  longest : ∀ other ∈ rs, other.Serves request → other ≠ r → other.path.length < r.path.length

theorem longest_of_first (h : rs.Pairwise fun a b => ¬a.path.toList <+: b.path.toList)
    (first : rs.find? (Serves · request) = some r) : Longest rs request r := by
  obtain ⟨hserves, before, behind, rfl, hbefore⟩ := List.find?_eq_some_iff_append.1 first
  have hserves : r.Serves request := of_decide_eq_true hserves
  refine ⟨by simp, hserves, fun other hother serves hne => ?_⟩
  rcases List.mem_append.1 hother with hin | hin
  · have hnot := hbefore other hin
    simp [serves] at hnot
  · have hin := (List.mem_cons.1 hin).resolve_left hne
    have hnot := (List.pairwise_cons.1 (List.pairwise_append.1 h).2.1).1 other hin
    have hbegins := (List.prefix_or_prefix_of_prefix hserves serves).resolve_left hnot
    refine Nat.lt_of_le_of_ne hbegins.length_le fun hlength => hnot ?_
    exact (hbegins.eq_of_length hlength) ▸ List.prefix_refl _

theorem find?_eq_some_iff_longest
    (h : rs.Pairwise fun a b => ¬a.path.toList <+: b.path.toList) :
    rs.find? (Serves · request) = some r ↔ Longest rs request r := by
  refine ⟨longest_of_first h, fun longest => ?_⟩
  have hsome : (rs.find? (Serves · request)).isSome = true :=
    List.find?_isSome.2 ⟨r, longest.listed, decide_eq_true longest.serves⟩
  obtain ⟨first, hfirst⟩ := Option.isSome_iff_exists.1 hsome
  have hlongest := longest_of_first h hfirst
  by_cases heq : first = r
  · exact heq ▸ hfirst
  · have hlt := hlongest.longest r longest.listed longest.serves (Ne.symm heq)
    have hgt := longest.longest first hlongest.listed hlongest.serves heq
    exact absurd hlt (Nat.lt_asymm hgt)

/-! ## The route table -/

theorem nodup_services (services : List String) (frontend : String) :
    ((table services frontend).map (·.service)).Nodup := by
  rw [List.Nodup, List.pairwise_map]
  refine (pairwise_table services frontend).imp_of_mem fun ha hb h heq => h.2 ?_
  obtain ⟨service, _, rfl⟩ := exists_of_mem_table ha
  obtain ⟨service', _, rfl⟩ := exists_of_mem_table hb
  exact congrArg (pathOf frontend) heq

theorem nodup_paths (services : List String) (frontend : String) :
    ((table services frontend).map (·.path)).Nodup := by
  rw [List.Nodup, List.pairwise_map]
  exact (pairwise_table services frontend).imp And.right

theorem mem_services (named : ∀ service ∈ services, service ≠ "") {service : String} :
    service ∈ (table services frontend).map (·.service) ↔ service ∈ services := by
  simp only [List.mem_map, mem_table named]
  constructor
  · rintro ⟨_, ⟨service, hservice, rfl⟩, rfl⟩
    exact hservice
  · exact fun hservice => ⟨_, ⟨service, hservice, rfl⟩, rfl⟩

/-- Nothing stands behind the root. -/
theorem getLast?_of_root (h : r ∈ table services frontend) (root : r.path = "/") :
    (table services frontend).getLast? = some r := by
  obtain ⟨before, behind, heq⟩ := List.append_of_mem h
  have hpairwise := pairwise_table services frontend
  rw [heq] at hpairwise ⊢
  have hbehind := (List.pairwise_cons.1 (List.pairwise_append.1 hpairwise).2.1).1
  cases behind with
  | nil => simp
  | cons next behind =>
    obtain ⟨hprecedes, hne⟩ := hbehind next List.mem_cons_self
    rcases precedes_iff.1 hprecedes with ⟨hroot, _⟩ | ⟨hiff, _⟩
    · exact absurd root hroot
    · exact absurd (root.trans (hiff.1 root).symm) hne

/-- The routes are those of the distinct services, one for each, if no name is empty; then any other
list of the same services, in another order or with repetitions, gives the same table. Whatever the
names are, no service and no path has two routes, the frontend answers at the root and every other
service under its name, no path begins with one in front of it, a route at the root is the last one,
and the first route that serves a request is the one with the longest path. -/
theorem table_canonical_unshadowed (services : List String) (frontend : String) :
    ((∀ service ∈ services, service ≠ "") →
      (∀ service, service ∈ (table services frontend).map (·.service) ↔ service ∈ services) ∧
      ∀ services' : List String, (∀ service, service ∈ services' ↔ service ∈ services) →
        table services' frontend = table services frontend) ∧
    ((table services frontend).map (·.service)).Nodup ∧
    ((table services frontend).map (·.path)).Nodup ∧
    (∀ r ∈ table services frontend,
      r.path = if r.service = frontend then "/" else "/" ++ r.service) ∧
    ((table services frontend).Pairwise fun a b => ¬a.path.toList <+: b.path.toList) ∧
    (∀ r ∈ table services frontend, r.path = "/" →
      (table services frontend).getLast? = some r) ∧
    ∀ (request : String) (r : Route),
      (table services frontend).find? (Serves · request) = some r ↔
        Longest (table services frontend) request r := by
  refine ⟨fun named => ⟨fun _ => mem_services named, fun _ => table_congr named⟩,
    nodup_services services frontend, nodup_paths services frontend, fun r hr => ?_,
    unshadowed services frontend, fun _ => getLast?_of_root,
    fun _ _ => find?_eq_some_iff_longest (unshadowed services frontend)⟩
  obtain ⟨service, _, rfl⟩ := exists_of_mem_table hr
  rfl

/-- Two services whose paths begin alike, in both orders. -/
theorem table_canonical_unshadowed_versions :
    (∀ service ∈ ["api", "frontend", "api-2"], service ≠ "") ∧
      table ["frontend", "api-2", "api", "api"] "frontend" =
        table ["api", "frontend", "api-2"] "frontend" ∧
      (table ["api", "frontend", "api-2"] "frontend").find? (Serves · "/api-2/users") =
        some (of "frontend" "api-2") := by
  have named : ∀ service ∈ ["api", "frontend", "api-2"], service ≠ "" := by decide
  obtain ⟨hnamed, _, _, _, _, _, hfirst⟩ :=
    table_canonical_unshadowed ["api", "frontend", "api-2"] "frontend"
  obtain ⟨_, hcongr⟩ := hnamed named
  have hshorter : ∀ service ∈ ["api", "frontend", "api-2"],
      of "frontend" service ≠ of "frontend" "api-2" →
        (of "frontend" service).path.length < (of "frontend" "api-2").path.length := by decide
  refine ⟨named, hcongr _ fun service => by grind, (hfirst _ _).2 ⟨?_, by decide, ?_⟩⟩
  · exact (mem_table named).2 ⟨_, by decide, rfl⟩
  · intro other hother _
    obtain ⟨service, hservice, rfl⟩ := (mem_table named).1 hother
    exact hshorter service hservice

end PreviewControl.Child.Route
