import LibKprintf.Handlers.Dispatch
import LibKprintf.Handlers.Reentry

/-! What registration guarantees to the clients: the callbacks that are called, the quiet
after unregister_handler has returned, and the messages that a registered callback gets.
-/

namespace LibKprintf

open Foundation

variable {cfg : Config}

section History

variable {early since : List Event} {thread : ThreadRef} {slot stamp : Nat} {cb : Callback}
variable {arg : U32}

end History

end LibKprintf
