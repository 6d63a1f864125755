import SessionServer.Dispatch.Table

/-!
Contract: the diagnostic provider.

An echo request in any state is answered by the plain text of its own arguments; a request without
arguments is not answered.
-/

namespace SessionServer.Echo

variable {μ : Type}

/-- Sends the arguments of the request back. -/
def echo : Handler μ := fun request =>
  if request.args.isEmpty then .done
  else .pushText request.connection request.args.toText .done

def provider : Provider μ where
  name := "echo"
  routes := [⟨Code.echo, .any, echo⟩]

end SessionServer.Echo
