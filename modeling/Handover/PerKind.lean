import Handover.Kind

/-!
# One value for each kind

`PerKind α` is a total map from the six workload kinds, with `get` and `set`.
-/

namespace Handover

/-- One value for each workload kind. -/
structure PerKind (α : Type) where
  deployment : α
  cloneSet : α
  daemonSet : α
  advancedDaemonSet : α
  statefulSet : α
  advancedStatefulSet : α

namespace PerKind

variable {α : Type}

/-- The same value for every kind. -/
def const (a : α) : PerKind α :=
  ⟨a, a, a, a, a, a⟩

/-- The value of one kind. -/
def get (p : PerKind α) : WorkloadKind → α
  | .deployment => p.deployment
  | .cloneSet => p.cloneSet
  | .daemonSet => p.daemonSet
  | .advancedDaemonSet => p.advancedDaemonSet
  | .statefulSet => p.statefulSet
  | .advancedStatefulSet => p.advancedStatefulSet

/-- Change the value of one kind. -/
def modify (p : PerKind α) (f : α → α) : WorkloadKind → PerKind α
  | .deployment => { p with deployment := f p.deployment }
  | .cloneSet => { p with cloneSet := f p.cloneSet }
  | .daemonSet => { p with daemonSet := f p.daemonSet }
  | .advancedDaemonSet => { p with advancedDaemonSet := f p.advancedDaemonSet }
  | .statefulSet => { p with statefulSet := f p.statefulSet }
  | .advancedStatefulSet => { p with advancedStatefulSet := f p.advancedStatefulSet }

@[simp]
theorem get_const (a : α) (k : WorkloadKind) : (const a).get k = a := by
  cases k <;> rfl

theorem get_modify (p : PerKind α) (f : α → α) (k l : WorkloadKind) :
    (p.modify f k).get l = if l = k then f (p.get l) else p.get l := by
  cases k <;> cases l <;> rfl

end PerKind

end Handover
