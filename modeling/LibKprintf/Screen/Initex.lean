import LibKprintf.Screen.Cursor
import LibKprintf.Screen.Picture

/-! What scr_initex leaves behind, whatever the display answers: the old screen untouched, or the
new one installed and cleared. The area it clears is that of the old screen.
-/

namespace LibKprintf

open Foundation

/-- The size of a pixel in a mode in bytes. -/
def DebugScr.modeSize (scr : DebugScr) : Nat :=
  if scr.vramMode.toNat = sceDisplayPixelRgba8888 then 4 else 2

/-- A colour as a pixel of the mode. -/
def DebugScr.modePixel (scr : DebugScr) (color : U32) : U32 :=
  if scr.vramMode.toNat = sceDisplayPixelRgba8888 then color
  else (convert16 scr.vramMode color).setWidth 32

/-- The number of bytes of the frame buffer that the display shows. -/
def DebugScr.frameBytes (scr : DebugScr) : Nat := scr.modeSize * vramPixels

/-- The number of bytes that clear_screen fills. -/
def DebugScr.clearBytes (build : ScrBuild) (scr : DebugScr) : Nat :=
  scr.pixelSize build * vramPixels

/-- A screen of whose memory nothing counts as written so far. -/
def Screen.unmarked (s : Screen) : Screen :=
  { s with vram := { s.vram with written := fun _ => false } }

/-- The frame buffer has the background colour, and nothing outside it has been written. -/
structure Screen.FrameCleared (s : Screen) : Prop where
  pixels
    : ∀ i < vramPixels,
        s.vram.Holds s.gScr.vramBase s.gScr.modeSize i (s.gScr.modePixel s.gScr.bgcol)
  outside : ∀ a, s.vram.written a = true → (a - s.gScr.vramBase).toNat < s.gScr.frameBytes

/-- A screen as the arguments of scr_initex ask for it: the cursor at the first cell, white on black
in the library's font, from the given base on or from that of the uncached VRAM, in the given mode
if there is such a one, and with the given flags or the default ones.
-/
structure DebugScr.Requested (scr : DebugScr) (display : Display) (vramBase : U32) (mode : Int)
    (flags : U32)
    : Prop where
  home : scr.x = 0 ∧ scr.y = 0
  colors : scr.fgcol = 0xFFFFFFFF ∧ scr.bgcol = 0
  font : scr.font = gMsx
  offset : scr.vramOffset = 0
  base : scr.vramBase = if vramBase = 0 then 0x40000000 ||| display.edramAddr else vramBase
  mode : (scr.vramMode.toNat : Int) = if 0 ≤ mode ∧ mode < 4 then mode else sceDisplayPixelRgba8888
  flags
    : scr.flags
      = if flags &&& flagScrDefault = 0 then flags.setWidth 16
        else (flagScrUseBgcol ||| flagScrUseClearline).setWidth 16

/-- A call of scr_initex leaves all as it was and requests the previous mode back if it had changed
it, or it installs the new screen and clears its frame buffer if it is asked to.
-/
structure AllOrNothing (build : ScrBuild) (display : Display) (s : Screen) (vramBase : U32)
    (mode : Int) (flags : U32)
    : Prop where
  nothing
    : let (t, ret) := scrInitex build display s.unmarked vramBase mode flags
      ret < 0 → t.gScr = s.gScr ∧ t.gInit = s.gInit ∧ t.vram = s.unmarked.vram
  restored
    : let (t, ret) := scrInitex build display s.unmarked vramBase mode flags
      ret < 0 → ∀ calls, t.displayCalls = s.displayCalls ++ calls →
        .setMode sceDisplayModeLcd scrWidth scrHeight ∈ calls → 0 ≤ display.setMode →
          calls.getLast? = some (.setMode display.mode display.width display.height)
  all
    : let (t, ret) := scrInitex build display s.unmarked vramBase mode flags
      ret = 0 → t.gScr = newDebugScr display vramBase mode flags
        ∧ t.gScr.Requested display vramBase mode flags ∧ t.gInit = true
        ∧ (flags &&& flagScrClear ≠ 0 → t.FrameCleared)

/-- The screen that scr_initex prepares is the one it is asked for. -/
theorem newDebugScr_requested (display : Display) (vramBase : U32) (mode : Int) (flags : U32)
    : (newDebugScr display vramBase mode flags).Requested display vramBase mode flags where
  home := ⟨rfl, rfl⟩
  colors := ⟨rfl, rfl⟩
  font := rfl
  offset := rfl
  base := by
    simp only [newDebugScr, getDefaultVramBase, ne_eq, ite_not]
    split <;> simp
  mode := by
    change ((BitVec.ofInt 8 (getValidMode mode)).toNat : Int) = _
    have modes : mode = sceDisplayPixelRgb565 ∨ mode = sceDisplayPixelRgba5551
          ∨ mode = sceDisplayPixelRgba4444 ∨ mode = sceDisplayPixelRgba8888
        ↔ 0 ≤ mode ∧ mode < 4 := by
      simp only [sceDisplayPixelRgb565, sceDisplayPixelRgba5551, sceDisplayPixelRgba4444,
        sceDisplayPixelRgba8888]
      omega
    rw [getValidMode, ← if_congr modes rfl rfl]
    split_ifs with valid
    · obtain rfl | rfl | rfl | rfl := valid <;> rfl
    · rfl
  flags := rfl

/-- The flags ask for the display to be set, and it refuses. -/
def Display.Refuses (display : Display) (flags : U32) : Prop :=
  flags &&& flagScrSetDisplay ≠ 0
    ∧ (display.getMode < 0 ∨ display.setMode < 0 ∨ display.setFrameBuf < 0)

/-- Clearing the old screen's area is enough for the new one: it is inside the new frame buffer,
and the rest of that buffer is zero already.
-/
structure DebugScr.ClearsFor (build : ScrBuild) (old new : DebugScr) (mem : ByteMemory 32)
    : Prop where
  within
    : (old.clearOrigin build - new.vramBase).toNat + old.clearBytes build ≤ new.frameBytes
  rest
    : ∀ a, (a - new.vramBase).toNat < new.frameBytes →
        ¬ (a - old.clearOrigin build).toNat < old.clearBytes build → mem.byte a = 0

/-- When the call of set_display in scr_initex fails. -/
theorem displayAnswer_neg {display : Display} {flags : U32} (scr : DebugScr)
    : (displayAnswer display scr flags).1 < 0 ↔ display.Refuses flags := by
  unfold displayAnswer setDisplay Display.Refuses
  by_cases asked : flags &&& flagScrSetDisplay ≠ 0
  · rw [if_pos asked, and_iff_right asked]
    split_ifs with mode lcd frameBuf <;> simp [*]
  · rw [if_neg asked]
    exact iff_of_false (lt_irrefl _) fun refuses => asked refuses.1

/-- A failing call requests the previous mode last if it has changed the mode before. -/
theorem displayAnswer_restores {display : Display} {scr : DebugScr} {flags : U32}
    (fails : (displayAnswer display scr flags).1 < 0)
    (changed
      : .setMode sceDisplayModeLcd scrWidth scrHeight ∈ (displayAnswer display scr flags).2)
    (success : 0 ≤ display.setMode)
    : (displayAnswer display scr flags).2.getLast?
      = some (.setMode display.mode display.width display.height) := by
  unfold displayAnswer setDisplay at *
  split_ifs at * with asked mode lcd frameBuf
  · simp at changed
  · omega
  · rfl
  · simp at fails
  · simp at fails

/-- Black is stored as zero in every mode. -/
theorem convert16_zero (vramMode : Byte) : convert16 vramMode 0 = 0 := by
  unfold convert16
  split_ifs <;> rfl

/-- The bytes after clear_screen has filled the old area with black, and which are written. -/
theorem clearScreen_black (build : ScrBuild) (s : Screen) (a : U32)
    : (clearScreen build s.unmarked 0).vram.byte a
        = (if (a - s.gScr.clearOrigin build).toNat < s.gScr.clearBytes build then 0
          else s.vram.byte a)
      ∧ ((clearScreen build s.unmarked 0).vram.written a = true
        ↔ (a - s.gScr.clearOrigin build).toNat < s.gScr.clearBytes build) := by
  have positive : 0 < s.gScr.pixelSize build := by
    rcases pixelSize_cases build s.gScr with size | size <;> omega
  have black : s.gScr.pixel build 0 = 0 := by
    unfold DebugScr.pixel
    split
    · rfl
    · rw [convert16_zero]
      rfl
  have filled := clearScreen_paint build s.unmarked 0
  change _ = s.unmarked.vram.paint (s.gScr.clearOrigin build) (s.gScr.pixelSize build)
    (cleared (s.gScr.pixel build 0)) at filled
  have area : (a - s.gScr.clearOrigin build).toNat / s.gScr.pixelSize build < vramPixels
      ↔ (a - s.gScr.clearOrigin build).toNat < s.gScr.clearBytes build := by
    rw [Nat.div_lt_iff_lt_mul positive, DebugScr.clearBytes, Nat.mul_comm vramPixels]
  rw [filled, black]
  simp only [ByteMemory.paint, cleared]
  by_cases inside : (a - s.gScr.clearOrigin build).toNat < s.gScr.clearBytes build
  · simp only [if_pos inside, if_pos (area.mpr inside)]
    exact ⟨byteOf_zero _, iff_of_true rfl inside⟩
  · simp only [if_neg inside, if_neg (mt area.mp inside)]
    exact ⟨rfl, iff_of_false Bool.false_ne_true inside⟩

/-- The new screen has a cleared frame buffer exactly if the area of the old one is enough. -/
theorem frameCleared_iff (build : ScrBuild) {s t : Screen} (black : t.gScr.bgcol = 0)
    (painted : t.vram = (clearScreen build s.unmarked 0).vram)
    : t.FrameCleared ↔ s.gScr.ClearsFor build t.gScr s.vram := by
  have count : vramPixels = 139264 := rfl
  have size : t.gScr.modeSize = 2 ∨ t.gScr.modeSize = 4 := by
    unfold DebugScr.modeSize
    split
    · exact Or.inr rfl
    · exact Or.inl rfl
  have zero : t.gScr.modePixel t.gScr.bgcol = 0 := by
    rw [black]
    unfold DebugScr.modePixel
    split
    · rfl
    · rw [convert16_zero]
      rfl
  have room : t.gScr.frameBytes < 2 ^ 32 := by
    rcases size with two | four <;> rw [DebugScr.frameBytes, count] <;> omega
  have some : 0 < s.gScr.clearBytes build := by
    rcases pixelSize_cases build s.gScr with two | four <;> rw [DebugScr.clearBytes, count] <;>
      omega
  have pixels : (∀ i < vramPixels,
        t.vram.Holds t.gScr.vramBase t.gScr.modeSize i (t.gScr.modePixel t.gScr.bgcol))
      ↔ ∀ a, (a - t.gScr.vramBase).toNat < t.gScr.frameBytes →
          ¬ (a - s.gScr.clearOrigin build).toNat < s.gScr.clearBytes build →
            s.vram.byte a = 0 := by
    rw [zero, ByteMemory.holds_zero (by omega) room.le, painted]
    refine forall₂_congr fun a inside => ?_
    rw [(clearScreen_black build s a).1]
    split_ifs with filled
    · exact iff_of_true rfl fun other => absurd filled other
    · exact (imp_iff_right filled).symm
  have outside : (∀ a, t.vram.written a = true →
        (a - t.gScr.vramBase).toNat < t.gScr.frameBytes)
      ↔ (s.gScr.clearOrigin build - t.gScr.vramBase).toNat + s.gScr.clearBytes build
          ≤ t.gScr.frameBytes := by
    rw [← area_subset _ _ some room, painted]
    exact forall_congr' fun a => imp_congr_left (clearScreen_black build s a).2
  exact ⟨fun ⟨shown, inside⟩ => ⟨outside.mp inside, pixels.mp shown⟩,
    fun ⟨inside, rest⟩ => ⟨pixels.mpr rest, outside.mpr inside⟩⟩

/-- A successful call that is asked to clear the screen does so exactly in that case. -/
theorem scrInitex_frameCleared (build : ScrBuild) {display : Display} (s : Screen)
    (vramBase : U32) (mode : Int) {flags : U32} (clears : flags &&& flagScrClear ≠ 0)
    (accepts : ¬ display.Refuses flags)
    : (scrInitex build display s.unmarked vramBase mode flags).1.FrameCleared
      ↔ s.gScr.ClearsFor build (newDebugScr display vramBase mode flags) s.vram := by
  rcases scrInitex_cases build display s.unmarked vramBase mode flags with
    ⟨fails, _⟩ | ⟨_, result⟩
  · exact absurd ((displayAnswer_neg _).mp fails) accepts
  · have frame := frameCleared_iff build (s := s)
      (t := (scrInitex build display s.unmarked vramBase mode flags).1)
      (by rw [result]; rfl) (by rw [result]; simp only [if_pos clears]; rfl)
    rw [frame, result]

/-- A call of scr_initex is all or nothing exactly if it clears nothing, or the display refuses, or
the area of the old screen is enough for the new frame buffer.
-/
theorem initex_all_or_nothing (build : ScrBuild) (display : Display) (s : Screen) (vramBase : U32)
    (mode : Int) (flags : U32)
    : AllOrNothing build display s vramBase mode flags
      ↔ flags &&& flagScrClear = 0 ∨ display.Refuses flags
        ∨ s.gScr.ClearsFor build (newDebugScr display vramBase mode flags) s.vram := by
  rcases scrInitex_cases build display s.unmarked vramBase mode flags with
    ⟨fails, result⟩ | ⟨success, result⟩
  · have refuses := (displayAnswer_neg _).mp fails
    refine iff_of_true ⟨?_, ?_, ?_⟩ (Or.inr (Or.inl refuses)) <;> rw [result]
    · exact fun _ => ⟨rfl, rfl, rfl⟩
    · intro _ calls appended
      rw [← List.append_cancel_left appended]
      exact fun changed done => displayAnswer_restores fails changed done
    · exact fun zero => absurd fails (by omega)
  · have accepts : ¬ display.Refuses flags := mt (displayAnswer_neg _).mpr (not_lt.mpr success)
    have succeeds (cleared : flags &&& flagScrClear ≠ 0 →
        (scrInitex build display s.unmarked vramBase mode flags).1.FrameCleared)
        : AllOrNothing build display s vramBase mode flags := by
      rw [result] at cleared
      refine ⟨?_, ?_, ?_⟩ <;> rw [result]
      · exact fun negative => absurd negative (lt_irrefl _)
      · exact fun negative => absurd negative (lt_irrefl _)
      · exact fun _ => ⟨rfl, newDebugScr_requested _ _ _ _, rfl, cleared⟩
    rw [or_iff_right accepts]
    by_cases clears : flags &&& flagScrClear = 0
    · exact iff_of_true (succeeds fun asked => absurd clears asked) (Or.inl clears)
    · rw [or_iff_right clears, ← scrInitex_frameCleared build s vramBase mode clears accepts]
      constructor
      · intro ⟨_, _, all⟩
        rw [result] at all ⊢
        exact (all rfl).2.2.2 clears
      · exact fun cleared => succeeds fun _ => cleared

/-- Counterexample: the first call, for another frame buffer than that of the initializer, clears
the latter.
-/
theorem not_initex_all_or_nothing
    : ¬ ∀ (build : ScrBuild) (display : Display) (s : Screen) (vramBase : U32) (mode : Int)
        (flags : U32), AllOrNothing build display s vramBase mode flags := by
  intro always
  have clears : flagScrClear &&& flagScrClear ≠ 0 := by decide
  have accepts : ¬ lcd.Refuses flagScrClear := fun refuses => absurd refuses.1 (by decide)
  have cleared := ((always ⟨false, 512⟩ lcd (.boot ⟨fun _ => 0, fun _ => false⟩) 0x04100000 3
    flagScrClear).all rfl).2.2.2 clears
  have enough := (scrInitex_frameCleared _ _ _ _ clears accepts).mp cleared
  exact absurd enough.within (by decide)

end LibKprintf
