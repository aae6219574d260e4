import LayerRouting.Store.Basic

/-!
# A store under observation

A store that counts how often a save was asked of it, and that can be put out of service:
while it is, a save fails without reaching the store.
-/

namespace LayerRouting

/-- A store, the number of saves asked of it, and why it is out of service if it is. -/
structure MonitoredStore (σ : Type) where
  inner : σ
  saves : Nat
  outage : Option String
  deriving DecidableEq, Repr

namespace MonitoredStore

variable {σ : Type}

/-- A store in service of which no save has been asked. -/
def ofStore (inner : σ) : MonitoredStore σ :=
  { inner, saves := 0, outage := none }

instance [DocumentStore σ] : DocumentStore (MonitoredStore σ) where
  load store owner := DocumentStore.load store.inner owner
  save store owner log :=
    let counted := { store with saves := store.saves + 1 }
    match store.outage with
    | some reason => (.error (.unavailable reason), counted)
    | none =>
        let (result, inner) := DocumentStore.save store.inner owner log
        (result, { counted with inner })

end MonitoredStore

end LayerRouting
