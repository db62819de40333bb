import LibKprintf.Model.Prnt
import LibKprintf.Screen.Cursor

/-! That prnt_cb prints a text as one call of scr_printdata would, wherever its buffer cuts it. -/

namespace LibKprintf

variable {prnt : PrntBuild} {build : ScrBuild}

/-- The events of a text: 0x200, the code of every character, and 0x201. -/
def framed (codes : List Byte) : List Int :=
  0x200 :: codes.map (fun c => (c.toNat : Int)) ++ [0x201]

/-- The characters that prnt_cb does not ignore. -/
def withoutReturns (codes : List Byte) : List Byte := codes.filter (· ≠ 0x0D)

/-- Two texts are printed one after the other as one text. -/
theorem scrPrintdata_append (build : ScrBuild) (s : Screen) (first second : List Byte)
    : (scrPrintdata build (scrPrintdata build s first).1 second).1
      = (scrPrintdata build s (first ++ second)).1 := by
  by_cases init : s.gInit = false
  · simp only [scrPrintdata, if_pos init]
  · have still : ¬ (first.foldl (scrPrintByte build) s).gInit = false := by
      rwa [foldl_printByte_gInit]
    simp only [scrPrintdata, if_neg init, if_neg still, List.foldl_append]

/-- Printing nothing leaves the screen as it is. -/
theorem scrPrintdata_nil (build : ScrBuild) (s : Screen) : (scrPrintdata build s []).1 = s := by
  unfold scrPrintdata
  split <;> rfl

/-- The characters in the buffer that are not printed yet. -/
def PrntCtx.pending (ctx : PrntCtx prnt) : List Byte := ctx.buf.toList.take ctx.len.toNat

/-- Of a text that is to be printed on the screen `s`, all has been printed on `t` except what is in
the buffer, where there is room for one more character.
-/
structure Streamed (build : ScrBuild) (s : Screen) (text : List Byte) (t : Screen)
    (ctx : PrntCtx prnt)
    : Prop where
  room : ctx.len.toNat < prnt.prntCtxBufsz
  printed : (scrPrintdata build t ctx.pending).1 = (scrPrintdata build s text).1

/-- Printing the buffer prints what is in it, and leaves it empty. -/
theorem PrntCtx.print_eq {ctx : PrntCtx prnt} (inside : ctx.len.toNat ≤ prnt.prntCtxBufsz)
    (t : Screen)
    : ctx.print build t = some ((scrPrintdata build t ctx.pending).1, { ctx with len := 0 }) :=
  if_pos inside

/-- With the length 0 nothing is pending. -/
theorem pending_empty (buf : Vector Byte prnt.prntCtxBufsz)
    : (⟨0, buf⟩ : PrntCtx prnt).pending = [] := by
  rw [PrntCtx.pending]
  exact List.take_zero

/-- A character that is stored at the end is pending behind the others. -/
theorem pending_store {ctx : PrntCtx prnt} (room : ctx.len.toNat < prnt.prntCtxBufsz) (c : Byte)
    : ((⟨ctx.len + 1, ctx.buf.setIfInBounds ctx.len.toNat c⟩ : PrntCtx prnt).len.toNat
          = ctx.len.toNat + 1)
      ∧ (⟨ctx.len + 1, ctx.buf.setIfInBounds ctx.len.toNat c⟩ : PrntCtx prnt).pending
        = ctx.pending ++ [c] := by
  have fits := prnt.fits
  have one : (1 : U16).toNat = 1 := rfl
  have next : (ctx.len + 1).toNat = ctx.len.toNat + 1 := by
    rw [BitVec.toNat_add, one]
    exact Nat.mod_eq_of_lt (by omega)
  have length : ctx.len.toNat < ctx.buf.toList.length := by
    rw [Vector.length_toList]
    exact room
  refine ⟨next, ?_⟩
  simp only [PrntCtx.pending, next]
  rw [Vector.toList_setIfInBounds, List.take_add_one, List.take_set_of_le le_rfl,
    List.getElem?_set_self length, Option.toList_some]

/-- One character of the text. -/
theorem Streamed.step {s t : Screen} {text : List Byte} {ctx : PrntCtx prnt}
    (streamed : Streamed build s text t ctx) (c : Byte)
    : ∃ t' ctx', prntCb build t ctx c.toNat = some (t', ctx')
        ∧ Streamed build s (text ++ withoutReturns [c]) t' ctx' := by
  have byte := c.isLt
  have start : ¬ (c.toNat : Int) = 0x200 := by omega
  have finish : ¬ (c.toNat : Int) = 0x201 := by omega
  have code : BitVec.ofInt 8 c.toNat = c := by
    rw [BitVec.ofInt_natCast, BitVec.ofNat_toNat, BitVec.setWidth_eq]
  rw [prntCb, if_neg start, if_neg finish]
  by_cases return' : c = 0x0D
  · refine ⟨t, ctx, if_pos (congrArg (fun b : Byte => (b.toNat : Int)) return'), ?_⟩
    simpa [withoutReturns, return'] using streamed
  · have other : ¬ (c.toNat : Int) = 0x0D := fun same =>
      return' (BitVec.eq_of_toNat_eq (Int.natCast_inj.mp same))
    have kept : withoutReturns [c] = [c] := by simpa [withoutReturns] using return'
    obtain ⟨length, stored⟩ := pending_store streamed.room c
    have room := streamed.room
    rw [if_neg other, if_pos room, kept]
    simp only [code]
    generalize ctx.buf.setIfInBounds ctx.len.toNat c = buf at length stored ⊢
    have printed
        : (scrPrintdata build t (⟨ctx.len + 1, buf⟩ : PrntCtx prnt).pending).1
          = (scrPrintdata build s (text ++ [c])).1 := by
      rw [stored, ← scrPrintdata_append, streamed.printed, scrPrintdata_append]
    by_cases full : (ctx.len + 1).toNat = prnt.prntCtxBufsz
    · rw [if_pos full, PrntCtx.print_eq full.le]
      refine ⟨_, _, rfl, prnt.positive, ?_⟩
      rw [pending_empty, scrPrintdata_nil]
      exact printed
    · rw [if_neg full]
      exact ⟨t, _, rfl, by simp only at length ⊢; omega, printed⟩

/-- Several characters; by induction on them. -/
theorem Streamed.run {s t : Screen} {text : List Byte} {ctx : PrntCtx prnt}
    (streamed : Streamed build s text t ctx) (codes : List Byte) (rest : List Int)
    : ∃ t' ctx', prntEvents build t ctx (codes.map (fun c => (c.toNat : Int)) ++ rest)
          = prntEvents build t' ctx' rest
        ∧ Streamed build s (text ++ withoutReturns codes) t' ctx' := by
  induction codes generalizing t text ctx with
  | nil => exact ⟨t, ctx, rfl, by simpa [withoutReturns] using streamed⟩
  | cons c codes ih =>
      obtain ⟨t₁, ctx₁, first, next⟩ := streamed.step c
      obtain ⟨t', ctx', others, last⟩ := ih next
      refine ⟨t', ctx', ?_, ?_⟩
      · rw [← others, List.map_cons, List.cons_append, prntEvents, first]
        rfl
      · have split : withoutReturns (c :: codes) = withoutReturns [c] ++ withoutReturns codes :=
          List.filter_append [c] codes
        rwa [split, ← List.append_assoc]

/-- From any context on, a framed text is printed without its carriage returns. -/
theorem prntEvents_framed (build : ScrBuild) (s : Screen) (ctx : PrntCtx prnt)
    (codes : List Byte)
    : ∃ ctx', ctx'.len = 0 ∧ prntEvents build s ctx (framed codes)
        = some ((scrPrintdata build s (withoutReturns codes)).1, ctx') := by
  have empty : Streamed build s [] s (⟨0, ctx.buf⟩ : PrntCtx prnt) :=
    ⟨prnt.positive, by rw [pending_empty]⟩
  obtain ⟨t, ctx', text, streamed⟩ := empty.run codes [0x201]
  have last : prntCb build t ctx' 0x201
      = some ((scrPrintdata build t ctx'.pending).1, { ctx' with len := 0 }) :=
    PrntCtx.print_eq streamed.room.le t
  refine ⟨{ ctx' with len := 0 }, rfl, ?_⟩
  calc prntEvents build s ctx (framed codes)
      = prntEvents build s (⟨0, ctx.buf⟩ : PrntCtx prnt)
          (codes.map (fun c => (c.toNat : Int)) ++ [0x201]) := rfl
    _ = prntEvents build t ctx' [0x201] := text
    _ = some ((scrPrintdata build t ctx'.pending).1, { ctx' with len := 0 }) := by
        rw [prntEvents, last]
        rfl
    _ = some ((scrPrintdata build s (withoutReturns codes)).1, { ctx' with len := 0 }) := by
        rw [streamed.printed]
        rfl

/-- For every text, from any context on, prnt_cb stays inside its buffer, leaves nothing in it and
prints the text without its carriage returns as one call of scr_printdata does. So scr_kprintf
prints what the format comes to, whatever is in its buffer before.
-/
theorem prnt_streams (build : ScrBuild) (s : Screen) (codes : List Byte)
    : (∀ ctx : PrntCtx prnt, ∃ t ctx', prntEvents build s ctx (framed codes) = some (t, ctx')
          ∧ ctx'.len = 0 ∧ t = (scrPrintdata build s (withoutReturns codes)).1)
      ∧ ∀ buf : Vector Byte prnt.prntCtxBufsz, scrKprintf build s buf (framed codes)
          = some (scrPrintdata build s (withoutReturns codes)).1 := by
  constructor
  · intro ctx
    obtain ⟨ctx', empty, printed⟩ := prntEvents_framed build s ctx codes
    exact ⟨_, ctx', printed, empty, rfl⟩
  · intro buf
    obtain ⟨ctx', _, printed⟩ := prntEvents_framed build s (⟨0, buf⟩ : PrntCtx prnt) codes
    rw [scrKprintf, printed]
    rfl

end LibKprintf
