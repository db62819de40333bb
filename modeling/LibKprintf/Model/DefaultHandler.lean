import LibKprintf.Model.Basic

/-! The library's own handler, default_file_handler of handler.c, as code that runs on the bytes
around `msg`: an index below 0 or from the capacity on is memory of somebody else.
-/

namespace LibKprintf

/-- `'\n'` -/
def newline : Byte := 10

/-- What a call of default_file_handler does: the indices of `msg` that it reads, writes or passes
to sceIoWrite, the bytes it leaves there, the length it stores in `*pLen`, and its output.
-/
structure DefaultRun where
  touched : List Int
  msg : Int → Byte
  len : U16
  output : Option (Uid × List Byte)

/-- default_file_handler, which always answers `KPRINTF_MSG_OK`. It is given the capacity too, but
does not look at it.
-/
def defaultFileHandler (cfg : Config) (arg : U32) (msg : Int → Byte) (pLen : U16) (isUser : Int)
    : DefaultRun :=
  let fd : Uid := arg.toInt
  let len : Int := pLen.toNat
  let canWrite : Bool :=
    cfg.kprintfDhWritePrintf && isUser ≠ 0 || cfg.kprintfDhWriteKprintf && isUser = 0
  let (touched, msg, len) :=
    if cfg.kprintfDhAutoNewline then
      if msg (len - 1) ≠ newline then
        ([len - 1, len, len + 1],
          Function.update (Function.update msg len newline) (len + 1) 0, len + 1)
      else
        ([len - 1], msg, len)
    else
      ([], msg, len)
  -- sceIoWrite reads the first `len` bytes.
  let written := if canWrite then (List.range len.toNat).map Int.ofNat else []
  { touched := touched ++ written
    msg := msg
    len := BitVec.ofInt 16 len
    output := if canWrite then some (fd, written.map msg) else none }

end LibKprintf
