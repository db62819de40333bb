import Mathlib.Algebra.Group.Nat.Defs
import Mathlib.Logic.Function.Basic
import Mathlib.Data.Finset.Card

/-! The data of the library: build settings, constants of the headers, queued messages,
registered handlers, and the history that the proofs observe.
-/

namespace LibKprintf

abbrev Byte := BitVec 8
abbrev U16 := BitVec 16
abbrev U32 := BitVec 32

/-- `SceUID`: the id of a kernel object, or a negative error code. -/
abbrev Uid := Int

/-- The address of a message block. `NULL` is 0. -/
abbrev Addr := Nat

/-- The settings of config.cmake that the code reads. They are fixed at build time, so a
setting that would not fit the C types it is stored in is not a configuration.
-/
structure Config where
  kprintfBufsz : Nat
  kprintfMaxHandlers : Nat
  kprintfPsplinkDetectTimeout : U32
  kprintfDhAutoRegister : Bool
  kprintfDhAutoNewline : Bool
  kprintfDhWriteKprintf : Bool
  kprintfDhWritePrintf : Bool
  bufsz_fits : kprintfBufsz + 16 ≤ 2 ^ 16
  maxHandlers_fits : kprintfMaxHandlers < 2 ^ 31

/-- The settings as config.cmake ships them. -/
def Config.shipped : Config where
  kprintfBufsz := 256
  kprintfMaxHandlers := 6
  kprintfPsplinkDetectTimeout := 2000000
  kprintfDhAutoRegister := true
  kprintfDhAutoNewline := true
  kprintfDhWriteKprintf := true
  kprintfDhWritePrintf := true
  bufsz_fits := by decide
  maxHandlers_fits := by decide

def kprintfErrNotStarted : Int := -1
def kprintfErrInvalidArgument : Int := -2
def kprintfErrInvalidIndex : Int := -3
def kprintfErrMaxHandlers : Int := -4
def kprintfErrNoHandler : Int := -5

def kprintfMsgOk : Int := 0
def kprintfMsgStop : Int := 1

def evFlush : U32 := 1#32 <<< 0
def evTerminate : U32 := 1#32 <<< 1
def evStopOk : U32 := 1#32 <<< 2

/-- The `STATE_*` values of `g_state`. -/
inductive ModuleState
  | stopped
  | started
  | stopping
  | starting
  | broken
  deriving DecidableEq, Repr

def sceErrorKernelNotFoundSemaphore : Int := (0x80020199#32).toInt
def sceErrorKernelNotFoundEventFlag : Int := (0x8002019A#32).toInt
def sceErrorKernelNotFoundVpool : Int := (0x8002019C#32).toInt
def sceErrorKernelWaitTimeout : Int := (0x800201A8#32).toInt
def sceErrorKernelWaitCancel : Int := (0x800201A9#32).toInt
def sceErrorKernelSemaOverflow : Int := (0x800201AE#32).toInt
def sceErrorKernelIllegalMemblock : Int := (0x800201B6#32).toInt

/-- `KPRINTF_MSG_SIZE`, in `u32` arithmetic. -/
def kprintfMsgSize (msglen : U32) : U32 := msglen + 1 + 1 + 14

/-- `SIZEOF_KPRINTF_MSG`: 12 bytes of fixed members in front of the text. -/
def sizeofKprintfMsg (msglen : U32) : U32 := 12 + kprintfMsgSize msglen

/-- What a queued message says: every member of `kprintf_msg_t` but the link. The flexible
array `msg` is the list of the bytes from it to the end of the block.
-/
structure MsgBody where
  isUser : Int
  len : U16
  size : U16
  msg : List Byte
  deriving DecidableEq

/-- `struct kprintf_msg_t`. -/
structure KprintfMsg extends MsgBody where
  next : Addr
  deriving DecidableEq

/-- The function a handler pointer names: the library's own, or some client code. -/
inductive Callback
  | defaultFileHandler
  | client (entry : Nat)
  deriving DecidableEq, Repr

/-- `kprintf_reghandler_t`; a `NULL` callback is `none`. -/
structure RegHandler where
  cb : Option Callback
  arg : U32
  deriving DecidableEq, Repr

/-- An unused slot, as the static initializer of `g_handlers` leaves it. -/
def RegHandler.empty : RegHandler := ⟨none, 0⟩

/-- Who runs: an event thread by its id, or a client thread by its number. -/
inductive ThreadRef
  | event (thid : Uid)
  | client (n : Nat)
  deriving DecidableEq, Repr

/-- A call of one of the exported functions of api.c. -/
inductive ApiCall
  | registerHandler (cb : Option Callback) (arg : U32)
  | registerDefaultHandler
  | unregisterHandler (index : Int)
  | install
  | isStarted
  deriving DecidableEq, Repr

inductive ObjectKind
  | vpl
  | eventFlag
  | sema
  | thread
  deriving DecidableEq, Repr

/-- Observations the code makes possible but does not keep. Messages are told apart by a
stamp, the number of messages accepted before them, because addresses are reused.
-/
inductive Event
  | created (kind : ObjectKind) (id : Uid)
  | deleted (kind : ObjectKind) (id : Uid)
  | initBegins
  | initReturns (ret : Int)
  | stopUnhooks
  | accepted (stamp : Nat) (body : MsgBody)
  | deliveryBegins (stamp : Nat) (body : MsgBody)
  | invoked (stamp slot : Nat) (cb : Callback) (arg : U32)
  | returned (stamp slot : Nat) (res : Int)
  | deliveryEnds (stamp : Nat)
  | freed (stamp : Nat)
  | called (thread : ThreadRef) (call : ApiCall)
  | answered (thread : ThreadRef) (call : ApiCall) (ret : Int)
  | stored (thread : ThreadRef) (slot : Nat) (cb : Callback) (arg : U32)
  | cleared (thread : ThreadRef) (slot : Nat)
  /-- The event thread has set EV_STOP_OK, and these are the bits of the event flag then. -/
  | acknowledged (flag : U32)
  deriving DecidableEq

end LibKprintf
