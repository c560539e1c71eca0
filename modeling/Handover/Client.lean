import Handover.Platform

/-!
# Clients

A `Client σ` is all that a migration sees of a platform: six calls that may look at and change a
state of type `σ`. A law that holds for every client holds whatever the platform answers.
`Platform.client` passes every call to a `Platform`.
-/

namespace Handover

/-- The calls through which a platform is used. -/
structure Client (σ : Type) where
  get : ResourceRef → σ → Except PlatformError Workload × σ
  create : Workload → σ → Except PlatformError Workload × σ
  update : Workload → σ → Except PlatformError Workload × σ
  delete : ResourceRef → Propagation → σ → Except PlatformError Unit × σ
  watch : WorkloadKind → σ → Except PlatformError Receiver × σ
  receive : Receiver → σ → Delivery

/-- The client that passes every call to the platform. -/
def Platform.client : Client Platform where
  get r p := (p.get r, p)
  create w p := p.create w
  update w p := p.update w
  delete r propagation p := p.delete r propagation
  watch kind p := (.ok (p.watch kind), p)
  receive r p := p.receive r

end Handover
