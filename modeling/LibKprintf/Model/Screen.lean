import LibKprintf.Foundation.ByteMemory
import LibKprintf.Model.Font

/-! The debug screen of scr.c: a text cursor on a frame buffer. The frame buffer is part of the
byte memory, and a pixel store is a store of two or four of its bytes; nothing is aligned.
-/

namespace LibKprintf

open Foundation

/-- What is fixed when scr.c is compiled: whether `USE_DEBUG_SCREEN_16` is on, and the size of the
buffer of scr_printf.
-/
structure ScrBuild where
  useDebugScreen16 : Bool
  scrPrintfBufsz : Nat

abbrev scrWidth : Nat := 480
abbrev scrHeight : Nat := 272
abbrev vramWidth : Nat := 512

/-- The number of pixels that clear_screen fills. -/
def vramPixels : Nat := vramWidth * scrHeight

abbrev fontcharWidthPx : Nat := 7
abbrev fontcharHeightPx : Nat := 8

/-- `MX`, the number of characters in a line. -/
abbrev mx : Nat := scrWidth / fontcharWidthPx

/-- `MY`, the number of lines. -/
abbrev my : Nat := scrHeight / fontcharHeightPx

def sceDisplayModeLcd : Int := 0
def sceDisplayPixelRgb565 : Nat := 0
def sceDisplayPixelRgba5551 : Nat := 1
def sceDisplayPixelRgba4444 : Nat := 2
def sceDisplayPixelRgba8888 : Nat := 3

def flagScrDefault : U32 := 1#32 <<< 0
def flagScrSetDisplay : U32 := 1#32 <<< 1
def flagScrClear : U32 := 1#32 <<< 2
def flagScrUseBgcol : U32 := 1#32 <<< 3
def flagScrUseClearline : U32 := 1#32 <<< 4

/-- `debug_scr_t`. A pointer is the number of its address. -/
structure DebugScr where
  x : U16
  y : U16
  fgcol : U32
  bgcol : U32
  flags : U16
  vramMode : Byte
  vramBase : U32
  vramOffset : BitVec 32
  font : Font

/-- `flags & flag` -/
def DebugScr.has (scr : DebugScr) (flag : U32) : Bool := scr.flags.setWidth 32 &&& flag ≠ 0

/-- init_debug_scr, and the static initializer of `g_scr`. -/
def initDebugScr : DebugScr where
  x := 0
  y := 0
  fgcol := 0xFFFFFFFF
  bgcol := 0
  flags := (flagScrUseBgcol ||| flagScrUseClearline).setWidth 16
  vramMode := BitVec.ofNat 8 sceDisplayPixelRgba8888
  vramBase := 0x04000000
  vramOffset := 0
  font := gMsx

/-- A character that was drawn, and the pixel position of its upper left corner. -/
structure Drawn where
  x : Int
  y : Int
  ch : Byte
  deriving DecidableEq

/-- A call that changes the display. -/
inductive DisplayCall
  | setMode (mode width height : Int)
  | setFrameBuf (base : U32) (width : Nat) (pixel : Byte)
  deriving DecidableEq

/-- The variables of scr.c and the memory. The characters drawn and the display calls made so far
are history only.
-/
structure Screen where
  gInit : Bool
  gScr : DebugScr
  vram : ByteMemory 32
  drawn : List Drawn
  displayCalls : List DisplayCall

/-- The variables as they are loaded, with any contents of the memory. -/
def Screen.boot (vram : ByteMemory 32) : Screen where
  gInit := false
  gScr := initDebugScr
  vram := vram
  drawn := []
  displayCalls := []

def convert8888To565 (color : U32) : U16 :=
  let b := (color >>> 19) &&& 0x1F
  let g := (color >>> 10) &&& 0x3F
  let r := (color >>> 3) &&& 0x1F
  (r ||| (g <<< 5) ||| (b <<< 11)).setWidth 16

def convert8888To5551 (color : U32) : U16 :=
  let a := if color >>> 24 ≠ 0 then 0x8000 else 0
  let b := (color >>> 19) &&& 0x1F
  let g := (color >>> 11) &&& 0x1F
  let r := (color >>> 3) &&& 0x1F
  (a ||| r ||| (g <<< 5) ||| (b <<< 10)).setWidth 16

def convert8888To4444 (color : U32) : U16 :=
  let a := (color >>> 28) &&& 0xF
  let b := (color >>> 20) &&& 0xF
  let g := (color >>> 12) &&& 0xF
  let r := (color >>> 4) &&& 0xF
  ((a <<< 12) ||| r ||| (g <<< 4) ||| (b <<< 8)).setWidth 16

/-- The 16-bit cases of the `switch` on `vram_mode` in clear_screen and scr_putchar. -/
def convert16 (vramMode : Byte) (color : U32) : U16 :=
  if vramMode.toNat = sceDisplayPixelRgb565 then
    convert8888To565 color
  else if vramMode.toNat = sceDisplayPixelRgba5551 then
    convert8888To5551 color
  else if vramMode.toNat = sceDisplayPixelRgba4444 then
    convert8888To4444 color
  else
    0

/-- clear_screen_16 and clear_screen_32. The offset is added to a pointer to pixels of `size`
bytes, shifted right by `shift`.
-/
def clearScreenWith (shift size : Nat) (s : Screen) (color : U32) : Screen :=
  let vram := element s.gScr.vramBase size (s.gScr.vramOffset.sshiftRight shift).toInt
  {
    s with
    vram :=
      (List.range vramPixels).foldl
        (fun mem (x : Nat) => mem.store size (element vram size x) color) s.vram
  }

def clearScreen16 (s : Screen) (color : U16) : Screen := clearScreenWith 1 2 s (color.setWidth 32)

def clearScreen32 (s : Screen) (color : U32) : Screen := clearScreenWith 2 4 s color

/-- clear_screen, which works on `g_scr`. -/
def clearScreen (build : ScrBuild) (s : Screen) (color : U32) : Screen :=
  if build.useDebugScreen16 then
    if s.gScr.vramMode.toNat = sceDisplayPixelRgba8888 then
      clearScreen32 s color
    else
      clearScreen16 s (convert16 s.gScr.vramMode color)
  else
    clearScreen32 s color

def getValidMode (mode : Int) : Int :=
  if mode = sceDisplayPixelRgb565 ∨ mode = sceDisplayPixelRgba5551
      ∨ mode = sceDisplayPixelRgba4444 ∨ mode = sceDisplayPixelRgba8888 then
    mode
  else
    sceDisplayPixelRgba8888

/-- What the kernel answers in one call of scr_initex: the address of the VRAM, the answers of
sceDisplayGetMode with the mode that it stores, of the first sceDisplaySetMode and of
sceDisplaySetFrameBuf.
-/
structure Display where
  edramAddr : U32
  getMode : Int
  mode : Int
  width : Int
  height : Int
  setMode : Int
  setFrameBuf : Int

def getDefaultVramBase (display : Display) (offset : U32) : U32 :=
  (0x40000000 ||| display.edramAddr) + offset

/-- set_display, with the calls that it makes. -/
def setDisplay (display : Display) (scr : DebugScr) : Int × List DisplayCall :=
  let lcd := DisplayCall.setMode sceDisplayModeLcd scrWidth scrHeight
  let frameBuf := DisplayCall.setFrameBuf scr.vramBase vramWidth scr.vramMode
  if display.getMode < 0 then
    (display.getMode, [])
  else if display.setMode < 0 then
    (display.setMode, [lcd])
  else if display.setFrameBuf < 0 then
    (display.setFrameBuf, [lcd, frameBuf, .setMode display.mode display.width display.height])
  else
    (0, [lcd, frameBuf])

/-- The local copy that scr_initex prepares. The flags are not set with `FLAG_SCR_DEFAULT`. -/
def newDebugScr (display : Display) (vramBase : U32) (mode : Int) (flags : U32) : DebugScr :=
  {
    initDebugScr with
    vramMode := BitVec.ofInt 8 (getValidMode mode)
    vramBase := if vramBase ≠ 0 then vramBase else getDefaultVramBase display 0
    flags := if flags &&& flagScrDefault = 0 then flags.setWidth 16 else initDebugScr.flags
  }

/-- The call of set_display in scr_initex, if the flags ask for it. -/
def displayAnswer (display : Display) (scr : DebugScr) (flags : U32) : Int × List DisplayCall :=
  if flags &&& flagScrSetDisplay ≠ 0 then setDisplay display scr else (0, [])

/-- scr_initex: the new state and what it returns. -/
def scrInitex (build : ScrBuild) (display : Display) (s : Screen) (vramBase : U32) (mode : Int)
    (flags : U32)
    : Screen × Int :=
  let scr := newDebugScr display vramBase mode flags
  let (ret, calls) := displayAnswer display scr flags
  let s := { s with displayCalls := s.displayCalls ++ calls }
  if ret < 0 then
    (s, ret)
  else
    -- The screen that is cleared is still the old one.
    let s := if flags &&& flagScrClear ≠ 0 then clearScreen build s scr.bgcol else s
    ({ s with gScr := scr, gInit := true }, 0)

/-- scr_setx: the new state and the previous column. An `x` out of range is ignored. -/
def scrSetx (s : Screen) (x : U16) : Screen × U16 :=
  (if x.toNat < mx then { s with gScr := { s.gScr with x := x } } else s, s.gScr.x)

/-- scr_sety: the new state and the previous line. -/
def scrSety (s : Screen) (y : U16) : Screen × U16 :=
  (if y.toNat < my then { s with gScr := { s.gScr with y := y } } else s, s.gScr.y)

def scrSetxy (s : Screen) (x y : U16) : Screen := (scrSety (scrSetx s x).1 y).1

/-- scr_set_vram_mode: the new state and the previous mode. -/
def scrSetVramMode (s : Screen) (mode : Int) : Screen × Int :=
  ({ s with gScr := { s.gScr with vramMode := BitVec.ofInt 8 (getValidMode mode) } },
    s.gScr.vramMode.toNat)

/-- scr_set_vram_base: the new state and the previous base. -/
def scrSetVramBase (s : Screen) (base : U32) : Screen × U32 :=
  ({ s with gScr := { s.gScr with vramBase := base } }, s.gScr.vramBase)

/-- scr_set_vram_offset: the new state and the previous offset. -/
def scrSetVramOffset (s : Screen) (offset : BitVec 32) : Screen × BitVec 32 :=
  ({ s with gScr := { s.gScr with vramOffset := offset } }, s.gScr.vramOffset)

/-- scr_set_fgcol: the new state and the previous colour. -/
def scrSetFgcol (s : Screen) (color : U32) : Screen × U32 :=
  ({ s with gScr := { s.gScr with fgcol := color } }, s.gScr.fgcol)

/-- scr_set_bgcol: the new state and the previous colour. -/
def scrSetBgcol (s : Screen) (color : U32) : Screen × U32 :=
  ({ s with gScr := { s.gScr with bgcol := color } }, s.gScr.bgcol)

/-- `on ? (f | flag) : (f & ~flag)` -/
def DebugScr.withFlag (scr : DebugScr) (flag : U32) (on : Int) : DebugScr :=
  let f := scr.flags.setWidth 32
  { scr with flags := (if on ≠ 0 then f ||| flag else f &&& ~~~flag).setWidth 16 }

/-- scr_use_bgcol: the new state, and whether the flag was set. -/
def scrUseBgcol (s : Screen) (on : Int) : Screen × Bool :=
  ({ s with gScr := s.gScr.withFlag flagScrUseBgcol on }, s.gScr.has flagScrUseBgcol)

/-- scr_use_clearline: the new state, and whether the flag was set. -/
def scrUseClearline (s : Screen) (on : Int) : Screen × Bool :=
  ({ s with gScr := s.gScr.withFlag flagScrUseClearline on }, s.gScr.has flagScrUseClearline)

/-- The inner loop of drawchar_16 and drawchar_32: one row of a glyph, from `vram` on. -/
def drawRow (size : Nat) (useBgcol : Bool) (fgcol bgcol : U32) (font : Byte) (vram : U32)
    (mem : ByteMemory 32)
    : ByteMemory 32 :=
  (List.range 8).foldl
    (fun mem (j : Nat) =>
      if font &&& (128#8 >>> j) ≠ 0 then
        mem.store size (element vram size j) fgcol
      else if useBgcol then
        mem.store size (element vram size j) bgcol
      else
        mem)
    mem

/-- drawchar_16 and drawchar_32. The offset, shifted right by `shift`, is added to a `void *`. -/
def drawcharWith (shift size : Nat) (s : Screen) (x y : Int) (fgcol bgcol : U32) (ch : Byte)
    : Screen :=
  if s.gInit = false then
    s
  else
    let vram :=
      element (s.gScr.vramBase + s.gScr.vramOffset.sshiftRight shift) size (x + y * vramWidth)
    {
      s with
      vram :=
        (List.range 8).foldl
          (fun mem (i : Nat) =>
            drawRow size (s.gScr.has flagScrUseBgcol) fgcol bgcol (s.gScr.font.row ch i)
              (element vram size (vramWidth * i)) mem)
          s.vram
      drawn := s.drawn ++ [⟨x, y, ch⟩]
    }

def drawchar16 (s : Screen) (x y : Int) (fgcol bgcol : U32) (ch : Byte) : Screen :=
  drawcharWith 1 2 s x y fgcol bgcol ch

def drawchar32 (s : Screen) (x y : Int) (fgcol bgcol : U32) (ch : Byte) : Screen :=
  drawcharWith 2 4 s x y fgcol bgcol ch

def scrPutchar (build : ScrBuild) (s : Screen) (x y : Int) (fgcol : U32) (ch : Byte) : Screen :=
  if build.useDebugScreen16 then
    if s.gScr.vramMode.toNat = sceDisplayPixelRgba8888 then
      drawchar32 s x y fgcol s.gScr.bgcol ch
    else
      drawchar16 s x y ((convert16 s.gScr.vramMode fgcol).setWidth 32)
        ((convert16 s.gScr.vramMode s.gScr.bgcol).setWidth 32) ch
  else
    drawchar32 s x y fgcol s.gScr.bgcol ch

/-- scr_clearline. It draws in the line of the cursor, not in line `y`. -/
def scrClearline (build : ScrBuild) (s : Screen) (_y : Int) : Screen :=
  if s.gScr.has flagScrUseClearline = false then
    s
  else if s.gScr.has flagScrUseBgcol = false then
    s
  else
    (List.range mx).foldl
      (fun s (i : Nat) => scrPutchar build s (i * 7) (s.gScr.y.toNat * 8) s.gScr.bgcol 219) s

/-- The loop of scr_clear over the lines. -/
def clearLines (build : ScrBuild) (s : Screen) : Screen :=
  (List.range my).foldl (fun s (y : Nat) => scrClearline build s y) s

def scrClear (build : ScrBuild) (s : Screen) : Screen :=
  if s.gInit = false then
    s
  else
    let s := clearLines build s
    let s := scrSetxy s 0 0
    clearScreen build s s.gScr.bgcol

/-- The cursor at the start of the next line; after the last line comes the first one. -/
def DebugScr.nextLine (scr : DebugScr) : DebugScr :=
  let y := scr.y + 1
  { scr with x := 0, y := if y.toNat = my then 0 else y }

/-- The line advance that scr_printdata makes for a newline and at the end of a line. -/
def advanceLine (build : ScrBuild) (s : Screen) : Screen :=
  let s := { s with gScr := s.gScr.nextLine }
  scrClearline build s s.gScr.y.toNat

/-- Draw a character at the cursor and count `x` up. -/
def putNext (build : ScrBuild) (s : Screen) (ch : Byte) : Screen :=
  let s := scrPutchar build s (s.gScr.x.toNat * 7) (s.gScr.y.toNat * 8) s.gScr.fgcol ch
  { s with gScr := { s.gScr with x := s.gScr.x + 1 } }

/-- The body of the loop of scr_printdata: one character. -/
def scrPrintByte (build : ScrBuild) (s : Screen) (c : Byte) : Screen :=
  if c = 0x0D then
    { s with gScr := { s.gScr with x := 0 } }
  else if c = 0x0A then
    advanceLine build s
  else if c = 0x09 then
    (List.range 4).foldl (fun s _ => putNext build s 0x20) s
  else
    let s := putNext build s c
    if s.gScr.x.toNat = mx then advanceLine build s else s

/-- scr_printdata of the `bufsz` bytes at `buf`, and what it returns. -/
def scrPrintdata (build : ScrBuild) (s : Screen) (buf : List Byte) : Screen × Int :=
  if s.gInit = false then (s, 0) else (buf.foldl (scrPrintByte build) s, buf.length)

/-- scr_puts of the bytes at `str`, or of `NULL`. -/
def scrPuts (build : ScrBuild) (s : Screen) (str : Option (List Byte)) : Screen × Int :=
  scrPrintdata build s ((str.getD []).takeWhile (· ≠ 0))

/-- scr_putsl, whose operands are evaluated from the left. -/
def scrPutsl (build : ScrBuild) (s : Screen) (str : Option (List Byte)) : Screen × Int :=
  let (s, first) := scrPuts build s str
  let (s, second) := scrPrintdata build s [0x0A]
  (s, first + second)

/-- scr_printf, for what vsnprintf answers and leaves in the buffer. -/
def scrPrintf (build : ScrBuild) (s : Screen) (len : Int) (buf : List Byte) : Screen × Int :=
  if len < 0 then
    (s, len)
  else if len.toNat ≥ build.scrPrintfBufsz then
    (s, 0)
  else
    scrPrintdata build s (buf.take len.toNat)

end LibKprintf
