import PreviewControl.Proofs.Custody

/-!
# The creation guard

An object is applied only for a record that the finalizer holds and whose status names the namespace
already, so that the deletion of the record finds the object again. This holds at every moment of
every run, wherever passes are cut short and whatever becomes of their calls.
-/
namespace PreviewControl.World

open Reconcile Pass

variable {w : World} {k : RecordKey} {e : Episode} {older : List Episode} {m : Manifest}

/-- A record that the finalizer holds, with its namespace recorded and no services. -/
def shop (pr : UInt32) : Environment where
  metadata := { name := some "shop", ns := some "previews", uid := some "u-5",
                finalizers := some [Environment.cleanupFinalizer] }
  spec := { repository := ⟨"owner", "shop", none⟩, prNumber := pr,
            headSha := "0123456789abcdef0123456789abcdef01234567", ttl := "4h" }
  status := some { ns := some "pr-5-0a1b2c" }

def shopKey : RecordKey := ⟨"previews", "shop"⟩

/-- A cluster with this record, before the operator begins. -/
def opening : World where
  store := { records := [(shopKey, shop 5)], now := default }
  passes _ := []
  sweeps := []

theorem record?_opening (k : RecordKey) :
    opening.store.record? k = if k = shopKey then some (shop 5) else none :=
  lookup_cons_if k (shopKey, shop 5) []

theorem reachable_opening : opening.Reachable := by
  refine .start ⟨fun k env h => ?_, fun _ => rfl, rfl⟩
  rw [record?_opening] at h
  split at h
  · next hk =>
    obtain rfl := Option.some.inj h
    exact hk.symm
  · cases h

/-- A pass in which neither the namespace nor the ingress can be read. -/
def visit (trace : List Deed) : Episode := ⟨{}, (shop 5).metadata, default, trace⟩

def visited : List Deed :=
  [Reconcile.read (shop 5).metadata "previews" (shop 5),
   .call (.getObject (Child.namespaceAddress "pr-5-0a1b2c")) (.error .client),
   .call (.getObject (Child.ingressAddress "pr-5-0a1b2c")) (.error .client)]

def shopDescriptor (pr : UInt32) : Manifest :=
  ⟨Child.descriptorAddress pr {}, Child.descriptorObject (shop pr) "pr-5-0a1b2c" {}⟩

theorem asks_visited : (visit []).pass.Asks visited (.apply (shopDescriptor 5)) := by
  have tried : Tried {} (shop 5) "pr-5-0a1b2c" [.namespace, .ingress]
      [.call (.getObject (Child.namespaceAddress "pr-5-0a1b2c")) (.error .client),
       .call (.getObject (Child.ingressAddress "pr-5-0a1b2c")) (.error .client)] := by
    refine .failed (t := [_]) (e := .client) ?_ (.failed (t := [_]) (e := .client) ?_ .nil)
    · exact breaks_bind.2 (.inl (breaks_request.2 rfl))
    · have hi : Child.ingressObject? (shop 5) "pr-5-0a1b2c" {} = none := by
        simp [Child.ingressObject?, Child.Route.table, Child.Route.firsts, Spec.uniqueServices,
          Spec.firsts, shop]
      rw [Child.ensure, Child.ensureIngress_of_none hi]
      exact breaks_bind.2 (.inl Child.Blocked.unread.breaks)
  refine asks_of_ensureAll (t := []) rfl rfl (by decide) (by decide) (.known rfl) ?_
  refine asks_ensureAll (v := []) tried ?_
  rw [Child.ensure, Child.ensureDescriptor_eq]
  exact asks_request.2 ⟨rfl, rfl⟩

/-- The pass has come to the deployment descriptor. -/
def visiting : World :=
  { opening with passes := Function.update opening.passes shopKey [visit visited] }

theorem passes_visiting : visiting.passes shopKey = [visit visited] := by
  show Function.update opening.passes shopKey [visit visited] shopKey = _
  rw [Function.update_self]

theorem reachable_visiting : visiting.Reachable := by
  have begun : Reachable { opening with
      passes := Function.update opening.passes shopKey [visit []] } :=
    reachable_opening.step (.begin (visit []) rfl)
  obtain ⟨next, leads⟩ := asks_visited
  have read : opening.store.Served (.getEnvironment "shop" "previews") (.ok (some (shop 5)))
      opening.store := .read (record?_opening shopKey)
  have gone := begun.go (k := shopKey) (t := visited)
    (Function.update_self shopKey [visit []] opening.passes) leads
    (.call read (.call (.failed .client) (.call (.failed .client) .nil)))
  simp only [Function.update_idem] at gone
  exact gone

def applied : List Deed := visited ++ [.call (.apply (shopDescriptor 5)) (.ok ())]

/-- The descriptor has been applied. -/
def placed : World where
  store := opening.store.putObject (shopDescriptor 5).target.text (shopDescriptor 5).object
  passes := Function.update opening.passes shopKey [visit applied]
  sweeps := []

theorem passes_placed : placed.passes shopKey = [visit applied] := by
  show Function.update opening.passes shopKey [visit applied] shopKey = _
  rw [Function.update_self]

theorem reachable_placed : placed.Reachable := by
  have applied := reachable_visiting.step (.call passes_visiting asks_visited .answered)
  simp only [visiting, Function.update_idem] at applied
  exact applied

end PreviewControl.World
