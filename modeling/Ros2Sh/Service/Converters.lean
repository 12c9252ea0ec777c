import Mathlib.Data.Nat.Notation

/-!
# The conversions of a service

`convert__srv.cpp.em` generates four functions for a service, between its ROS 2 request and response and the
dynamic data of the Integration Service.  The proxies of the service use nothing else of its types.
-/

namespace Ros2Sh.Service

/-- The conversion functions generated for a service.  Each one writes into its target, so it also takes what the
target held before. -/
structure Converters (Req Resp Data : Type) where
  requestToRos2 : Data → Req → Req
  requestToXtype : Req → Data → Data
  responseToRos2 : Data → Resp → Resp
  responseToXtype : Resp → Data → Data

/-- A conversion overwrites every field of its target: what the target held before does not show. -/
def Overwrites {α β : Type} (convert : α → β → β) : Prop := ∀ a before before', convert a before = convert a before'

/-- The conversions of a service with one number in its request and one in its response. -/
def oneField : Converters ℕ ℕ ℕ where
  requestToRos2 data _ := data
  requestToXtype request _ := request
  responseToRos2 data _ := data
  responseToXtype response _ := response

end Ros2Sh.Service
