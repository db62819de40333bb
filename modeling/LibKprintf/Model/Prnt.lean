import LibKprintf.Model.Screen

/-! scr_kprintf of scrk.c: the kernel's prnt hands the text to prnt_cb one character after the
other, which collects it in a buffer and prints the buffer whenever it is full.
-/

namespace LibKprintf

/-- The size of the buffer, as it is fixed when scr.c is compiled; its length is kept in a u16. -/
structure PrntBuild where
  prntCtxBufsz : Nat
  positive : 0 < prntCtxBufsz
  fits : prntCtxBufsz < 2 ^ 16

/-- The size that scr.c defines if nobody else does. -/
def PrntBuild.default : PrntBuild := ⟨256, by decide, by decide⟩

/-- `prnt_ctx` -/
structure PrntCtx (prnt : PrntBuild) where
  len : U16
  buf : Vector Byte prnt.prntCtxBufsz

variable {prnt : PrntBuild}

/-- `scr_printdata(ctx->buf, ctx->len); ctx->len = 0;`, where it does not read beyond the buffer. -/
def PrntCtx.print (build : ScrBuild) (s : Screen) (ctx : PrntCtx prnt)
    : Option (Screen × PrntCtx prnt) :=
  if ctx.len.toNat ≤ prnt.prntCtxBufsz then
    some ((scrPrintdata build s (ctx.buf.toList.take ctx.len.toNat)).1, { ctx with len := 0 })
  else
    none

/-- prnt_cb: the screen and the context after one event, where it does not store beyond the buffer.
-/
def prntCb (build : ScrBuild) (s : Screen) (ctx : PrntCtx prnt) (ch : Int)
    : Option (Screen × PrntCtx prnt) :=
  if ch = 0x200 then
    some (s, { ctx with len := 0 })
  else if ch = 0x201 then
    ctx.print build s
  else if ch = 0x0D then
    some (s, ctx)
  else if ctx.len.toNat < prnt.prntCtxBufsz then
    let ctx : PrntCtx prnt :=
      { len := ctx.len + 1, buf := ctx.buf.setIfInBounds ctx.len.toNat (BitVec.ofInt 8 ch) }
    if ctx.len.toNat = prnt.prntCtxBufsz then ctx.print build s else some (s, ctx)
  else
    none

/-- A sequence of events. -/
def prntEvents (build : ScrBuild) (s : Screen) (ctx : PrntCtx prnt)
    : List Int → Option (Screen × PrntCtx prnt)
  | [] => some (s, ctx)
  | ch :: rest => do
      let (s, ctx) ← prntCb build s ctx ch
      prntEvents build s ctx rest

/-- scr_kprintf, for the events that prnt makes of the format and its arguments and for what is in
the buffer before.
-/
def scrKprintf (build : ScrBuild) (s : Screen) (buf : Vector Byte prnt.prntCtxBufsz)
    (events : List Int)
    : Option Screen :=
  (prntEvents build s ⟨0, buf⟩ events).map Prod.fst

end LibKprintf
