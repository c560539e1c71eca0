/-!
# Planning one step

A migration has a target and a surge bound. Its counters say how many replicas it has taken from
the source and given to the destination so far, and `plan` decides on the one step to take next:
give as long as the bound allows, else take once the destination is fully available, else wait.
-/

namespace Handover

/-- Replicas moved so far: taken from the source, given to the destination. -/
structure Counters where
  src : Int
  dst : Int
  deriving DecidableEq

/-- The replica counts that the platform reports. -/
structure Observation where
  srcDeclared : Int
  dstDeclared : Int
  dstAvailable : Int
  deriving DecidableEq

/-- Why no step is taken. -/
inductive WaitReason where
  | idle
  | destinationUnavailable
  deriving DecidableEq

/-- The one action of a pass. -/
inductive Step where
  | complete
  | scaleOut (amount : Int)
  | scaleIn (amount : Int)
  | wait (reason : WaitReason)
  deriving DecidableEq

namespace Counters

/-- Nothing moved yet. -/
def zero : Counters :=
  ⟨0, 0⟩

/-- How many replicas run beyond those taken from the source. -/
def lead (c : Counters) : Int :=
  c.dst - c.src

/-- The counters after a step. -/
def after (c : Counters) : Step → Counters
  | .scaleOut n => { c with dst := c.dst + n }
  | .scaleIn n => { c with src := c.src + n }
  | .complete | .wait _ => c

end Counters

/-- How many replicas the destination may still be given at once. -/
def outAmount (target maxSurge : Int) (c : Counters) : Int :=
  min (maxSurge - c.lead) (target - c.dst)

/-- How many replicas the source can still be relieved of at once. -/
def inAmount (target : Int) (c : Counters) (o : Observation) : Int :=
  min (min o.srcDeclared (target - c.src)) c.lead

/-- The step to take next. -/
def plan (target maxSurge : Int) (c : Counters) (o : Observation) : Step :=
  if target ≤ c.src ∧ target ≤ c.dst then .complete
  else if c.dst < target ∧ 0 < outAmount target maxSurge c then
    .scaleOut (outAmount target maxSurge c)
  else if c.src < target ∧ 0 < inAmount target c o then
    if o.dstDeclared = o.dstAvailable then .scaleIn (inAmount target c o)
    else .wait .destinationUnavailable
  else .wait .idle

/-- The steps planned for a sequence of observations, each applied to the counters at once, with
the counters after it. -/
def planAll (target maxSurge : Int) (c : Counters) : List Observation → List (Step × Counters)
  | [] => []
  | o :: rest =>
    let step := plan target maxSurge c o
    (step, c.after step) :: planAll target maxSurge (c.after step) rest

end Handover
