import LibKprintf.Foundation.LinkedList
import LibKprintf.Model.Kernel

/-! The message queue of msg.c. A function that dereferences pointers answers `none` when
it reaches outside live memory or never ends.
-/

namespace LibKprintf

open Foundation

variable {cfg : Config}

/-- `memset(m, 0, mSize)` on a fresh block of `mSize` bytes. -/
def zeroedMsg (mSize : Nat) : KprintfMsg where
  next := 0
  isUser := 0
  len := 0
  size := 0
  msg := List.replicate (mSize - 12) 0

/-- The bytes `strncpy(dst, src, n)` stores: the string up to its first NUL, then NULs. -/
def strncpy (src : List Byte) (n : Nat) : List Byte :=
  let text := (src.take n).takeWhile (· ≠ 0)
  text ++ List.replicate (n - text.length) 0

/-- Store bytes from an offset of a buffer on; `none` past its end. -/
def storeBytes (buffer : List Byte) (offset : Nat) (bytes : List Byte) : Option (List Byte) :=
  if offset + bytes.length ≤ buffer.length then
    some (buffer.take offset ++ bytes ++ buffer.drop (offset + bytes.length))
  else
    none

/-- The contents new_msg gives its block once it is allocated. -/
def fillMsg (msg : List Byte) (len : U32) (isUser : Int) : Option KprintfMsg := do
  let m := zeroedMsg (sizeofKprintfMsg len).toNat
  let m :=
    { m with
      next := 0
      isUser := isUser
      len := len.setWidth 16
      size := (kprintfMsgSize len).setWidth 16 }
  let copied ← storeBytes m.msg 0 (strncpy msg len.toNat)
  let terminated ← storeBytes copied len.toNat [0]
  return { m with msg := terminated }

/-- The messages accepted so far, in order. -/
def accepted (history : List Event) : List (Nat × MsgBody) :=
  history.filterMap fun
    | .accepted stamp body => some (stamp, body)
    | _ => none

/-- new_msg, for the allocator's answer. On success it also answers the new block. -/
def newMsg (sh : Shared cfg) (msg : List Byte) (len : U32) (isUser : Int)
    (answer : Except Int Addr)
    : Option (Shared cfg × Except Int Addr) :=
  match answer with
  | .error code => some (sh, .error code)
  | .ok m => do
      let contents ← fillMsg msg len isUser
      let block := ⟨sh.g.gVplid, (accepted sh.history).length, contents⟩
      return ({ sh with k := { sh.k with mem := sh.k.mem.allocate m block } }, .ok m)

/-- add_msg: walk to the end of the queue and link the message there. A list of live nodes
is no longer than the number of live blocks, so a longer walk runs around a cycle.
-/
def addMsg (sh : Shared cfg) (m : Addr) : Option (Shared cfg) := do
  let (prev, cur) ← walk sh.k.mem.loadNext 0 (fun _ => false) sh.k.mem.live.card 0 sh.g.gHead
  if prev = 0 ∧ cur = 0 then
    return { sh with g := { sh.g with gHead := m } }
  else
    let mem ← sh.k.mem.store prev (fun node => { node with next := m })
    return { sh with k := { sh.k with mem := mem } }

/-- The unlinking part of remove_delete_msg, for the predecessor its loop found. -/
def unlinkMsg (sh : Shared cfg) (prev m : Addr) : Option (Shared cfg) := do
  let next ← sh.k.mem.loadNext m
  if sh.g.gHead = m then
    return { sh with g := { sh.g with gHead := next } }
  else if prev ≠ 0 then
    let mem ← sh.k.mem.store prev (fun node => { node with next := next })
    return { sh with k := { sh.k with mem := mem } }
  else
    return sh

/-- Give the block of a message back to the pool; the history notes the freed message. -/
def freeMsg (sh : Shared cfg) (m : Addr) : Shared cfg × Int :=
  let stamp := (sh.k.mem.block m).stamp
  let (k, ret) := sh.k.sceKernelFreeVpl sh.g.gVplid m
  if ret = 0 then
    ({ sh with k := k }.note (.freed stamp), ret)
  else
    ({ sh with k := k }, ret)

/-- remove_delete_msg. -/
def removeDeleteMsg (sh : Shared cfg) (m : Addr) : Option (Shared cfg × Int) :=
  if sh.g.gHead = 0 then
    some (sh, 0)
  else do
    let (k, intr) := sh.k.sceKernelCpuSuspendIntr
    let sh := { sh with k := k }
    let (prev, cur) ←
      walk sh.k.mem.loadNext 0 (fun cur => cur = m) sh.k.mem.live.card 0 sh.g.gHead
    if cur = 0 then
      return ({ sh with k := sh.k.sceKernelCpuResumeIntrWithSync intr }, 0)
    else
      let unlinked ← unlinkMsg sh prev m
      let (freed, ret) := freeMsg unlinked m
      return ({ freed with k := freed.k.sceKernelCpuResumeIntrWithSync intr }, ret)

end LibKprintf
