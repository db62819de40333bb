import LibKprintf.Foundation.Observation
import LibKprintf.Output.DefaultHandler

/-! From Kprintf to the standard output. As long as the default handler is registered and the other
handlers leave the messages alone, what it passes to sceIoWrite are the accepted messages, in order,
each once and as a line.
-/

namespace LibKprintf

open Foundation

variable {cfg : Config}

-----------------------------------------------------------------------------------------
-- The output while a message is passed on
-----------------------------------------------------------------------------------------

/-- The lines of the messages that have been passed to the handlers. -/
def Shared.lines (sh : Shared cfg) : List (Uid × List Byte) :=
  linesOf cfg sh.g.stdoutFd (delivered sh.history)

/-- The output while the message in `m` is passed to the slots from `i` on: if the default handler
has one of them, the message is as it was accepted, and all before it have been written; if not, it
has been written too.
-/
structure Shared.Shows (sh : Shared cfg) (out : List (Uid × List Byte)) (m : Addr) (i : Nat)
    : Prop where
  ahead
    : ∀ j arg, i ≤ j → sh.g.pairAt j = some (.defaultFileHandler, arg) →
        ∃ earlier, delivered sh.history = earlier ++ [sh.k.mem.entry m]
          ∧ out = linesOf cfg sh.g.stdoutFd earlier
  behind
    : (∀ j arg, i ≤ j → sh.g.pairAt j ≠ some (.defaultFileHandler, arg)) → out = sh.lines

/-- The output at each program point of flush_messages. -/
def FlushPc.Shows (sh : Shared cfg) (out : List (Uid × List Byte)) : FlushPc → Prop
  | .slot m i | .invoke m i => sh.Shows out m i
  | .callback m i cb _ => (∃ arg, sh.g.pairAt i = some (cb, arg)) ∧ sh.Shows out m i
  | _ => out = sh.lines

/-- The output, wherever the event thread is. -/
def EventPc.Shows (sh : Shared cfg) (out : List (Uid × List Byte)) : EventPc → Prop
  | .flush _ pc => pc.Shows sh out
  | _ => out = sh.lines

section Shows

variable {outside : Int → Byte} {s : State cfg} {sh sh' : Shared cfg}
variable {out : List (Uid × List Byte)} {thid : Uid} {ev : U32} {m : Addr} {i : Nat}
variable {pc : FlushPc} {choice : Choice cfg}

/-- Lines of messages one after the other. -/
theorem linesOf_append (fd : Uid) (earlier later : List (Nat × MsgBody))
    : linesOf cfg fd (earlier ++ later) = linesOf cfg fd earlier ++ linesOf cfg fd later :=
  List.filterMap_append

/-- The same descriptor and the same messages give the same lines. -/
theorem Shared.lines_congr (stdout : sh'.g.gStdout = sh.g.gStdout)
    (same : delivered sh'.history = delivered sh.history)
    : sh'.lines = sh.lines := by
  unfold Shared.lines Globals.stdoutFd
  rw [stdout, same]

/-- What has been written are still all lines. -/
theorem Shared.lines_kept (lines : out = sh.lines) (stdout : sh'.g.gStdout = sh.g.gStdout)
    (same : delivered sh'.history = delivered sh.history)
    : out = sh'.lines :=
  lines.trans (Shared.lines_congr stdout same).symm

/-- A step that changes neither the table nor what is known of the message keeps the output. -/
theorem Shared.Shows.frame (shows : sh.Shows out m i) (stdout : sh'.g.gStdout = sh.g.gStdout)
    (same : delivered sh'.history = delivered sh.history)
    (table : ∀ j, sh'.g.pairAt j = sh.g.pairAt j) (entry : sh'.k.mem.entry m = sh.k.mem.entry m)
    : sh'.Shows out m i where
  ahead := by
    intro j arg later held
    rw [table] at held
    obtain ⟨earlier, split, written⟩ := shows.ahead j arg later held
    refine ⟨earlier, by rw [same, entry, split], ?_⟩
    rw [written, Globals.stdoutFd, Globals.stdoutFd, stdout]
  behind := by
    intro free
    rw [Shared.lines_congr stdout same]
    exact shows.behind fun j arg later => by simpa only [table] using free j arg later

/-- The same at every program point. -/
theorem FlushPc.Shows.frame (shows : pc.Shows sh out) (stdout : sh'.g.gStdout = sh.g.gStdout)
    (same : LibKprintf.delivered sh'.history = LibKprintf.delivered sh.history)
    (table : ∀ j, sh'.g.pairAt j = sh.g.pairAt j)
    (entries : ∀ a ∈ pc.known, sh'.k.mem.entry a = sh.k.mem.entry a)
    : pc.Shows sh' out := by
  cases pc with
  | slot m i | invoke m i =>
      exact Shared.Shows.frame shows stdout same table (entries m (List.mem_singleton_self m))
  | callback m i cb nested =>
      obtain ⟨⟨arg, held⟩, shows⟩ := shows
      exact ⟨⟨arg, (table i).trans held⟩,
        shows.frame stdout same table (entries m (List.mem_singleton_self m))⟩
  | _ => exact Shared.lines_kept shows stdout same

/-- A slot that the default handler does not have may be passed over. -/
theorem Shared.Shows.next (shows : sh.Shows out m i)
    (other : ∀ arg, sh.g.pairAt i ≠ some (.defaultFileHandler, arg))
    : sh.Shows out m (i + 1) where
  ahead := fun j arg later => shows.ahead j arg (Nat.le_of_succ_le later)
  behind := fun free => shows.behind fun j arg later => by
    rcases Nat.eq_or_lt_of_le later with rfl | above
    · exact other arg
    · exact free j arg above

/-- Behind the slot of the default handler the message has been written. -/
theorem Shared.Shows.written (lines : out = sh.lines)
    (free : ∀ j arg, i ≤ j → sh.g.pairAt j ≠ some (.defaultFileHandler, arg))
    : sh.Shows out m i :=
  ⟨fun j arg later held => absurd held (free j arg later), fun _ => lines⟩

/-- Only a callback that returns writes. -/
theorem State.output_eq_nil {action : Action cfg} (none : s.returning action = none)
    : s.output outside action = [] := by
  simp [State.output, none]

/-- So nothing is written elsewhere. -/
theorem State.returning_eq_none {pc : EventPc} (place : s.threads thid = pc)
    (elsewhere : ∀ ev m i cb, pc ≠ .flush ev (.callback m i cb none))
    : s.returning (.event thid choice) = none := by
  cases choice with
  | ret res len msg =>
      cases pc with
      | flush ev pc =>
          cases pc with
          | callback m i cb nested =>
              cases nested with
              | none => exact absurd rfl (elsewhere ev m i cb)
              | some => simp [State.returning, place]
          | _ => simp [State.returning, place]
      | _ => simp [State.returning, place]
  | _ => rfl

/-- A callback outside the exported functions returns, or calls one of them. -/
theorem flushStep_callback {cb : Callback} {pc' : Option FlushPc}
    (stepped : flushStep thid sh (.callback m i cb none) choice = .next (sh', pc'))
    : (∃ res len msg mem, choice = .ret res len msg
        ∧ sh.k.mem.store m (fun node => { node with len := len, msg := msg }) = some mem
        ∧ sh' = { sh with k := { sh.k with mem := mem } }.note
            (.returned (sh.k.mem.block m).stamp i res)
        ∧ pc' = some (if res = kprintfMsgStop then .delivered m else .slot m (i + 1)))
      ∨ ∃ call, choice = .call call ∧ sh' = sh.note (.called (.event thid) call)
        ∧ pc' = some (.callback m i cb (some (call, apiEntry sh call))) := by
  simp only [flushStep, StepResult.map_eq_next, Prod.exists, Prod.mk.injEq] at stepped
  obtain ⟨_, next, called, rfl, rfl⟩ := stepped
  unfold callbackStep at called
  split at called
  · split at called
    · contradiction
    · simp only [StepResult.map_eq_next, StepResult.ofMemory_eq_next] at called
      obtain ⟨mem, stored, same⟩ := called
      cases same
      exact Or.inl ⟨_, _, _, mem, rfl, stored, rfl, rfl⟩
  · split at called
    · contradiction
    · cases called
      exact Or.inr ⟨_, rfl, rfl, rfl⟩
  · contradiction

/-- A callback was called with the argument of the pair that is registered in its slot. -/
theorem Dispatch.passedArg {history : List Event} {cb cb' : Callback} {arg : U32}
    {nested : ClientPc} (dispatch : Dispatch history (.flush ev (.callback m i cb nested)))
    (held : registered history i = some (cb', arg))
    : LibKprintf.passedArg history (lastBegun history) i = arg := by
  have passing : Passing history (lastBegun history) (i + 1) := dispatch.place
  have passed : invocations history (lastBegun history) i
      = [.invoked (lastBegun history) i cb' arg] := by
    simpa [PassedTo, held] using passing.below i (Nat.lt_succ_self i)
  simp [LibKprintf.passedArg, passed]

/-- The default handler writes the line of its message before it returns. -/
theorem State.output_default {res : Int} {len : U16} {msg : List Byte}
    (place : s.threads thid = .flush ev (.callback m i .defaultFileHandler none))
    (text : (s.sh.k.mem.entry m).2.HasText)
    (passed
      : passedArg s.sh.history (s.sh.k.mem.block m).stamp i = BitVec.ofInt 32 s.sh.g.gStdout)
    : s.output outside (.event thid (.ret res len msg))
      = linesOf cfg s.sh.g.stdoutFd [s.sh.k.mem.entry m] := by
  have output := @defaultFileHandler_output cfg outside (BitVec.ofInt 32 s.sh.g.gStdout) _
    text.1 text.2
  simp only [State.output, State.returning, place, State.defaultRun, passed]
  refine (congrArg Option.toList output).trans ?_
  simp only [linesOf, Globals.stdoutFd, List.filterMap_cons, List.filterMap_nil]
  split <;> rfl

/-- A callback that passes its message on leaves the output in agreement. -/
theorem Shared.Shows.returns {cb : Callback} {arg : U32} {res : Int} {len : U16}
    {msg : List Byte} {mem : Mem} (shows : s.sh.Shows out m i)
    (place : s.threads thid = .flush ev (.callback m i cb none))
    (held : s.sh.g.pairAt i = some (cb, arg))
    (passed : passedArg s.sh.history (s.sh.k.mem.block m).stamp i = arg)
    (once
      : ∀ arg, s.sh.g.pairAt i = some (.defaultFileHandler, arg) →
          arg = BitVec.ofInt 32 s.sh.g.gStdout
            ∧ ∀ j arg', s.sh.g.pairAt j = some (.defaultFileHandler, arg') → j = i)
    (texts : ∀ entry ∈ delivered s.sh.history, entry.2.HasText)
    (passes : s.PassesOn outside ⟨m, i, cb, res, len, msg⟩)
    (stored : s.sh.k.mem.store m (fun node => { node with len := len, msg := msg }) = some mem)
    : res ≠ kprintfMsgStop
      ∧ Shared.Shows
          ({ s.sh with k := { s.sh.k with mem := mem } }.note
            (.returned (s.sh.k.mem.block m).stamp i res))
          (out ++ s.output outside (.event thid (.ret res len msg))) m (i + 1) := by
  have same : delivered (s.sh.history ++ [.returned (s.sh.k.mem.block m).stamp i res])
      = delivered s.sh.history := by
    simp [delivered]
  cases cb with
  | client entry =>
      obtain ⟨goesOn, rfl, rfl⟩ : res ≠ kprintfMsgStop
          ∧ len = (s.sh.k.mem.block m).msg.len ∧ msg = (s.sh.k.mem.block m).msg.msg := passes
      have silent : s.output outside (.event thid (.ret res (s.sh.k.mem.block m).msg.len
          (s.sh.k.mem.block m).msg.msg)) = [] := by
        simp [State.output, State.returning, place]
      have entries : mem.entry m = s.sh.k.mem.entry m := by
        unfold Mem.store at stored
        split at stored
        · cases stored
          simp [Mem.entry]
        · contradiction
      rw [silent, List.append_nil]
      refine ⟨goesOn, (shows.next fun arg' held' => ?_).frame rfl same (fun _ => rfl) entries⟩
      rw [held] at held'
      simp at held'
  | defaultFileHandler =>
      have ok : res = kprintfMsgOk := passes.1
      obtain ⟨value, unique⟩ := once arg held
      obtain ⟨earlier, split, written⟩ := shows.ahead i arg (Nat.le_refl i) held
      have text : (s.sh.k.mem.entry m).2.HasText := texts _ (by simp [split])
      have output : s.output outside (.event thid (.ret res len msg))
          = linesOf cfg s.sh.g.stdoutFd [s.sh.k.mem.entry m] :=
        State.output_default place text (passed.trans value)
      refine ⟨by simp [ok, kprintfMsgOk, kprintfMsgStop], .written ?_ fun j arg' later held' => ?_⟩
      · have lines : Shared.lines ({ s.sh with k := { s.sh.k with mem := mem } }.note
            (.returned (s.sh.k.mem.block m).stamp i res)) = s.sh.lines :=
          Shared.lines_congr rfl same
        rw [lines, output, written, ← linesOf_append, ← split]
        rfl
      · exact absurd (unique j arg' held') (Nat.ne_of_gt later)

/-- Every step of flush_messages keeps the output in agreement, by cases of its program point. -/
theorem shows_flush {pc' : Option FlushPc} {nodes : List Addr} (shows : pc.Shows s.sh out)
    (place : s.threads thid = .flush ev pc) (delivery : Delivery s.sh (.flush ev pc) nodes)
    (dispatch : Dispatch s.sh.history (.flush ev pc))
    (table : ∀ slot, s.sh.g.pairAt slot = registered s.sh.history slot)
    (nested : ∀ call api, pc.nested = some (call, api) → api.locked = false)
    (once
      : ∀ i arg, s.sh.g.pairAt i = some (.defaultFileHandler, arg) →
          arg = BitVec.ofInt 32 s.sh.g.gStdout
            ∧ ∀ j arg', s.sh.g.pairAt j = some (.defaultFileHandler, arg') → j = i)
    (texts : AllText s.sh.history) (kept : DefaultKept sh'.history)
    (passes : ∀ ret ∈ s.returning (.event thid choice), s.PassesOn outside ret)
    (stepped : flushStep thid s.sh pc choice = .next (sh', pc'))
    : (pc'.elim (.signal ev) (.flush ev) : EventPc).Shows sh'
        (out ++ s.output outside (.event thid choice)) := by
  have silent (elsewhere : ∀ m i cb, pc ≠ .callback m i cb none) :
      out ++ s.output outside (.event thid choice) = out := by
    have nobody : s.returning (.event thid choice) = none :=
      State.returning_eq_none place fun _ m i cb same =>
        elsewhere m i cb (EventPc.flush.inj same).2
    rw [State.output_eq_nil nobody, List.append_nil]
  cases pc with
  | start | advance n =>
      rw [silent (by simp)]
      simp only [flushStep, Choice.onGo_eq_next, StepResult.next.injEq, Prod.mk.injEq] at stepped
      obtain ⟨_, rfl, rfl⟩ := stepped
      exact shows
  | test m =>
      rw [silent (by simp)]
      simp only [flushStep, Choice.onGo_eq_next, StepResult.next.injEq] at stepped
      obtain ⟨_, stepped⟩ := stepped
      split at stepped <;> cases stepped
      · exact shows
      · -- The default handler has one of the slots, because it has been kept.
        obtain ⟨slot, arg, held⟩ := (always_concat.mp kept).2 _ _ rfl
        rw [← table slot] at held
        refine ⟨fun _ _ _ _ => ⟨delivered s.sh.history, ?_, shows⟩, fun free => ?_⟩
        · simp [delivered, Mem.entry]
        · exact absurd held (free slot arg (Nat.zero_le slot))
  | slot m i =>
      rw [silent (by simp)]
      simp only [flushStep, Choice.onGo_eq_next, StepResult.next.injEq] at stepped
      obtain ⟨_, stepped⟩ := stepped
      split at stepped
      · split at stepped <;> cases stepped
        · rename_i unused
          refine Shared.Shows.next shows fun arg held => ?_
          rw [Globals.pairAt_eq_none.mpr unused] at held
          contradiction
        · exact shows
      · rename_i bound
        cases stepped
        refine shows.behind fun j arg later held => ?_
        rw [Globals.pairAt_out (by omega)] at held
        contradiction
  | invoke m i =>
      rw [silent (by simp)]
      simp only [flushStep, Choice.onGo_eq_next] at stepped
      obtain ⟨_, stepped⟩ := stepped
      split at stepped
      · rename_i cb arg slot
        split at stepped
        · cases stepped
          refine ⟨⟨arg, by simp [Globals.pairAt, slot]⟩, ?_⟩
          exact Shared.Shows.frame shows rfl (by simp [delivered]) (fun _ => rfl) rfl
        · contradiction
      · contradiction
  | callback m i cb running =>
      obtain ⟨⟨arg, held⟩, shows⟩ := shows
      obtain ⟨rest, rfl⟩ := delivery.first rfl
      cases running with
      | none =>
          obtain ⟨res, len, msg, mem, rfl, stored, rfl, rfl⟩ | ⟨call, rfl, rfl, rfl⟩ :=
            flushStep_callback stepped
          · obtain ⟨stamp, _⟩ := delivery.stamp_eq rfl
            have passed : passedArg s.sh.history (s.sh.k.mem.block m).stamp i = arg := by
              rw [stamp]
              exact dispatch.passedArg ((table i).symm.trans held)
            have known : ∀ entry ∈ delivered s.sh.history, entry.2.HasText := fun entry member =>
              texts entry (delivery.passed ▸ List.mem_append_left _ member)
            obtain ⟨goesOn, later⟩ := shows.returns place held passed (once i) known
              (passes ⟨m, i, cb, res, len, msg⟩ (by simp [State.returning, place])) stored
            rw [if_neg goesOn]
            exact later
          · rw [State.output_eq_nil (by rfl), List.append_nil]
            refine ⟨⟨arg, held⟩, shows.frame rfl (by simp [delivered]) (fun _ => rfl) rfl⟩
      | some running =>
          obtain ⟨call, api⟩ := running
          rw [silent (by simp)]
          simp only [flushStep, StepResult.map_eq_next, Prod.exists, Prod.mk.injEq] at stepped
          obtain ⟨after, api', called, rfl, rfl⟩ := stepped
          have unlocked := nested call api rfl
          have same := apiCallStep_table called unlocked
          obtain ⟨none, entries⟩ := Shared.Prints.kept (apiCallStep_queue called) delivery
          have pairs (j : Nat) : after.g.pairAt j = s.sh.g.pairAt j := by
            simp only [Globals.pairAt, same.handlers]
          exact ⟨⟨arg, (pairs i).trans held⟩, shows.frame (apiCallStep_gStdout called) none pairs
            (entries m List.mem_cons_self)⟩
  | delivered m =>
      rw [silent (by simp)]
      simp only [flushStep, Choice.onGo_eq_next, StepResult.next.injEq, Prod.mk.injEq] at stepped
      obtain ⟨_, rfl, rfl⟩ := stepped
      exact Shared.lines_kept shows rfl (by simp [delivered])
  | readNext m =>
      rw [silent (by simp)]
      simp only [flushStep, Choice.onGo_eq_next, StepResult.map_eq_next, Prod.mk.injEq] at stepped
      obtain ⟨_, n, _, rfl, rfl⟩ := stepped
      exact shows
  | remove m n =>
      rw [silent (by simp)]
      simp only [flushStep, Choice.onGo_eq_next, StepResult.map_eq_next, Prod.exists,
        StepResult.ofMemory_eq_next, Prod.mk.injEq] at stepped
      obtain ⟨_, _, ret, removed, rfl, rfl⟩ := stepped
      obtain ⟨head, mem, events, freed, rfl⟩ := removeDeleteMsg_effect removed
      refine Shared.lines_kept shows rfl ?_
      refine delivered_silent s.sh.history fun event member => ?_
      obtain ⟨stamp, rfl⟩ := freed event member
      rfl

/-- A step outside flush_messages that leaves the table alone during a flush keeps the output. -/
theorem EventPc.Shows.prints {pc : EventPc} {nodes : List Addr} (shows : pc.Shows sh out)
    (delivery : Delivery sh pc nodes) (prints : sh.Prints sh')
    (stdout : sh'.g.gStdout = sh.g.gStdout) (table : pc.locked = true → sh.SameTable sh')
    : pc.Shows sh' out := by
  obtain ⟨same, entries⟩ := prints.kept delivery
  cases pc with
  | flush ev place =>
      refine FlushPc.Shows.frame shows stdout same (fun j => ?_) fun a member => ?_
      · simp only [Globals.pairAt, (table rfl).handlers]
      · exact entries a (delivery.known.subset member)
  | _ => exact Shared.lines_kept shows stdout same

/-- A step of the event thread outside flush_messages leaves all lines written. -/
theorem EventEffect.shows {pc pc' : EventPc} {nodes : List Addr}
    (effect : EventEffect thid sh pc sh' pc') (elsewhere : ∀ ev place, pc ≠ .flush ev place)
    (delivery : Delivery sh pc nodes) (lines : out = sh.lines)
    : pc'.Shows sh' out := by
  have later := Shared.lines_kept lines effect.gStdout ((effect.prints elsewhere).kept delivery).1
  cases effect with
  | flush => exact absurd rfl (elsewhere _ _)
  | move move =>
      have free := move.free.2
      cases pc' <;> first | contradiction | exact later
  | @register api sh' api' choice => cases api' <;> exact later
  | callRegister | wake | acquire | release | resend | stopOk => exact later

/-- Every step in the session keeps the output in agreement. -/
theorem shows_step {t : State cfg} {action : Action cfg}
    (shows : (s.threads s.sh.g.gThid).Shows s.sh out)
    (reach : (machine cfg).Reachable SingleSession s) (inside : s.loader.inSession = true)
    (static : DefaultStatic s.sh.history) (kept : DefaultKept t.sh.history)
    (allowed : PassingOn outside s action) (stepped : s.step action = some t)
    : (t.threads t.sh.g.gThid).Shows t.sh (out ++ s.output outside action) := by
  obtain ⟨single, passes⟩ := allowed
  have exclusive := exclusion reach inside
  obtain ⟨nodes, delivered⟩ := (delivering reach inside).delivery
  cases State.step_cases stepped with
  | crash =>
      have running := (delivery (reach.step single stepped)).1
      contradiction
  | overRegister =>
      rw [State.output_eq_nil (by rfl), List.append_nil]
      exact shows.prints delivered (Or.inl ⟨rfl, rfl, rfl, [], by simp, by simp⟩) rfl
        fun _ => ⟨rfl, rfl, rfl⟩
  | kprintf printed =>
      rw [State.output_eq_nil (by rfl), List.append_nil, (kprintf_frame printed).gThid]
      exact shows.prints delivered (Or.inr ⟨_, printed⟩) (kprintf_gStdout printed)
        fun _ => kprintf_table printed
  | @loader choice sh' threads' loader' ran =>
      obtain ⟨effect, rfl⟩ := loaderStep_effect ran inside (not_start single inside)
      rw [State.output_eq_nil (by rfl), List.append_nil, effect.frame_gThid]
      exact shows.prints delivered effect.prints effect.gStdout fun _ => effect.table
  | @client n choice sh' pc' ran =>
      have effect := clientStep_effect ran
      rw [State.output_eq_nil (by rfl), List.append_nil, effect.frame.gThid]
      refine shows.prints delivered effect.prints effect.gStdout fun locked => effect.table ?_
      obtain ⟨holder, _, guarded⟩ := exclusive.owned
      by_contra held
      have both : ThreadRef.client n = .event s.sh.g.gThid :=
        guarded.exclusive (show s.locked (.client n) = true by simpa [State.locked] using held) locked
      contradiction
  | @event thid choice sh' pc' ran =>
      obtain rfl := (session reach inside).runs ran
      have effect := eventStep_effect ran
      rw [effect.frame.gThid]
      simp only [Function.update_self]
      by_cases elsewhere : ∀ ev place, s.threads s.sh.g.gThid ≠ .flush ev place
      · have lines : out = s.sh.lines := by
          cases place : s.threads s.sh.g.gThid with
          | flush ev pc => exact absurd place (elsewhere ev pc)
          | _ =>
              rw [place] at shows
              exact shows
        rw [State.output_eq_nil (State.returning_eq_none rfl fun ev m i cb => elsewhere ev _),
          List.append_nil]
        exact effect.shows elsewhere delivered lines
      · push Not at elsewhere
        obtain ⟨ev, pc, place⟩ := elsewhere
        rw [place] at shows delivered ran
        simp only [eventStep, StepResult.map_eq_next] at ran
        obtain ⟨⟨next, pc''⟩, flushed, same⟩ := ran
        obtain ⟨dispatch, table, unlocked⟩ := in_flush reach inside place
        have kept' : DefaultKept next.history := by cases pc'' <;> cases same <;> exact kept
        have later := shows_flush shows place delivered dispatch table unlocked
          (fun i arg => default_once reach inside static (exclusive.flush_outside place))
          (all_text reach inside) kept' passes flushed
        cases pc'' <;> cases same <;> exact later

end Shows

-----------------------------------------------------------------------------------------
-- Whole runs
-----------------------------------------------------------------------------------------

/-- In every run the output is in agreement with the messages, as long as the default handler is
kept.
-/
theorem output_shows {outside : Int → Byte} {s : State cfg} {out : List (Uid × List Byte)}
    (observed : (machine cfg).Observed (PassingOn outside) (State.output outside) s out)
    : (s.loader.inSession = false → out = [])
      ∧ (s.loader.inSession = true → DefaultStatic s.sh.history → DefaultKept s.sh.history →
          (s.threads s.sh.g.gThid).Shows s.sh out) := by
  refine observed.invariant (P := fun s out =>
    (s.loader.inSession = false → out = [])
      ∧ (s.loader.inSession = true → DefaultStatic s.sh.history → DefaultKept s.sh.history →
          (s.threads s.sh.g.gThid).Shows s.sh out))
    ⟨fun _ => rfl, fun inside => by contradiction⟩ ?_
  intro s action t out reach earlier allowed stepped
  have reach' : (machine cfg).Reachable SingleSession s := reach.mono fun _ _ allowed => allowed.1
  have grows := history_grows stepped
  by_cases inside : s.loader.inSession = true
  · have inside' := inSession_step allowed.1 inside stepped
    refine ⟨fun outside' => by simp [inside'] at outside', fun _ static kept => ?_⟩
    have static' : DefaultStatic s.sh.history := fun thread arg member =>
      static thread arg (grows.subset member)
    exact shows_step (earlier.2 inside static' (kept.of_prefix grows)) reach' inside static' kept
      allowed stepped
  · -- Before the session no callback runs.
    have before : s.loader.inSession = false := by simpa using inside
    have early := (starting reach' before).before.early
    have silent : s.output outside action = [] := by
      refine State.output_eq_nil ?_
      cases action with
      | event thid choice =>
          refine State.returning_eq_none rfl fun ev m i cb same => ?_
          simpa [same, EventPc.early] using early thid
      | _ => rfl
    rw [silent, List.append_nil, earlier.1 before]
    refine ⟨fun _ => rfl, fun inside' _ _ => ?_⟩
    rcases (starting reach' before).step before allowed.1 stepped with ⟨outside', _⟩ | fresh
    · simp [inside'] at outside'
    · have lines : [] = t.sh.lines := by
        simp [Shared.lines, linesOf, (messages_beforeSession fresh.history).2.1]
      rcases fresh.polling with polls | polls <;> rw [polls] <;> exact lines

/-- From Kprintf to the standard output. In every run whose handlers pass all messages on, and in
which each delivery begins while the default handler is registered, what has been written is a part
of the lines of the accepted messages from the first one on, and all of them once the queue is empty.
-/
theorem stdout_lines {outside : Int → Byte} {s : State cfg} {out : List (Uid × List Byte)}
    (observed : (machine cfg).Observed (PassingOn outside) (State.output outside) s out)
    (static : DefaultStatic s.sh.history) (kept : DefaultKept s.sh.history)
    : out <+: linesOf cfg s.sh.g.stdoutFd (accepted s.sh.history)
      ∧ (s.sh.g.gHead = 0 → out = linesOf cfg s.sh.g.stdoutFd (accepted s.sh.history)) := by
  have reach : (machine cfg).Reachable SingleSession s :=
    observed.reachable.mono fun _ _ allowed => allowed.1
  obtain ⟨before, after⟩ := output_shows observed
  by_cases inside : s.loader.inSession = true
  swap
  · have outside' : s.loader.inSession = false := by simpa using inside
    have none := (messages_beforeSession (starting reach outside').before.history).1
    rw [before outside', none]
    exact ⟨List.nil_prefix, fun _ => rfl⟩
  have shows := after inside static kept
  obtain ⟨nodes, delivery⟩ := (delivering reach inside).delivery
  have inOrder : linesOf cfg s.sh.g.stdoutFd (delivered s.sh.history)
      <+: linesOf cfg s.sh.g.stdoutFd (accepted s.sh.history) := by
    rw [← delivery.passed, linesOf_append]
    exact List.prefix_append _ _
  have lines (written : out = s.sh.lines) :
      out <+: linesOf cfg s.sh.g.stdoutFd (accepted s.sh.history)
        ∧ (s.sh.g.gHead = 0 → out = linesOf cfg s.sh.g.stdoutFd (accepted s.sh.history)) := by
    refine ⟨written ▸ inOrder, fun empty => ?_⟩
    obtain rfl := delivery.queue.head_eq_null.mp empty
    rw [written, Shared.lines, ← delivery.passed]
    simp
  have passing (m : Addr) (i : Nat) (first : (s.threads s.sh.g.gThid).known = [m])
      (shows : s.sh.Shows out m i) :
      out <+: linesOf cfg s.sh.g.stdoutFd (accepted s.sh.history)
        ∧ (s.sh.g.gHead = 0 → out = linesOf cfg s.sh.g.stdoutFd (accepted s.sh.history)) := by
    by_cases ahead : ∃ j arg, i ≤ j ∧ s.sh.g.pairAt j = some (.defaultFileHandler, arg)
    · obtain ⟨j, arg, later, held⟩ := ahead
      obtain ⟨earlier, split, written⟩ := shows.ahead j arg later held
      refine ⟨?_, fun empty => ?_⟩
      · refine List.IsPrefix.trans ?_ inOrder
        rw [written, split, linesOf_append]
        exact List.prefix_append _ _
      · obtain ⟨rest, rfl⟩ := delivery.first first
        simpa using delivery.queue.head_eq_null.mp empty
    · push Not at ahead
      exact lines (shows.behind ahead)
  cases place : s.threads s.sh.g.gThid with
  | flush ev pc =>
      rw [place] at shows passing
      cases pc with
      | slot m i | invoke m i => exact passing m i rfl shows
      | callback m i cb nested => exact passing m i rfl shows.2
      | _ => exact lines shows
  | _ =>
      rw [place] at shows
      exact lines shows

/-- The default handler is kept if it is registered before the first delivery and the table is left
alone from then on; by induction on the later events.
-/
theorem defaultKept_of_registered {early late : List Event} {slot : Nat} {arg : U32}
    (before : ∀ event ∈ early, event.ofDelivery = false)
    (held : registered early slot = some (.defaultFileHandler, arg))
    (silent : ∀ event ∈ late, event.ofTable = false)
    : DefaultKept (early ++ late) := by
  induction late using List.reverseRecOn with
  | nil =>
      have always : DefaultKept ([] ++ early) := by
        refine Always.nil.append fun past event member stamp body same => ?_
        rw [same] at member
        simpa [Event.ofDelivery] using before _ member
      simpa using always
  | append_singleton late event ih =>
      have earlier : ∀ event ∈ late, event.ofTable = false := fun event member =>
        silent event (List.mem_append_left _ member)
      rw [DefaultKept, ← List.append_assoc, always_concat]
      refine ⟨ih earlier, fun _ _ _ => ⟨slot, arg, ?_⟩⟩
      rw [registered_append early earlier slot]
      exact held

/-- The default handler of the run that starts the module writes the first of two messages of three
letters, with a newline, and the second one is about to be passed to it.
-/
def writeRun : List (Action .shipped) :=
  loopRun ++ kprintfRun 100 ++ kprintfRun 200 ++ eventRun 7
    ++ [.event 13 (.ret 0 4 (List.replicate 3 65 ++ newline :: List.replicate 15 0))]
    ++ eventRun 13

/-- Witness: one of the two lines has been written. -/
theorem stdout_lines_run
    : ∃ (s : State .shipped) (out : List (Uid × List Byte)),
        out = [(1, [65, 65, 65, newline])] ∧ (accepted s.sh.history).length = 2
          ∧ out <+: linesOf .shipped s.sh.g.stdoutFd (accepted s.sh.history) := by
  have done : ((machine .shipped).runObserving (PassingOn fun _ => 0) (State.output fun _ => 0)
      (machine .shipped).init writeRun).any (fun (s, out) =>
        (out = [(1, [65, 65, 65, newline])] ∧ (accepted s.sh.history).length = 2)
          ∧ callEvents s.sh.history = [.invoke (.event 13) .registerDefaultHandler,
              .respond (.event 13) .registerDefaultHandler 0]
          ∧ (∀ event ∈ s.sh.history.take 10, event.ofDelivery = false)
          ∧ registered (s.sh.history.take 10) 0 = some (.defaultFileHandler, 1)
          ∧ ∀ event ∈ s.sh.history.drop 10, event.ofTable = false) = true := by
    decide +kernel
  obtain ⟨s, out, observed, holds⟩ := System.exists_of_runObserving done
  obtain ⟨shown, calls, before, held, silent⟩ := of_decide_eq_true holds
  have kept : DefaultKept s.sh.history :=
    List.take_append_drop 10 s.sh.history ▸ defaultKept_of_registered before held silent
  have static : DefaultStatic s.sh.history := by
    intro thread arg member
    have begins : CallEvent.invoke thread (.registerHandler (some .defaultFileHandler) arg)
        ∈ callEvents s.sh.history :=
      List.mem_filterMap.mpr ⟨_, member, rfl⟩
    simp [calls] at begins
  exact ⟨s, out, shown.1, shown.2, (stdout_lines observed static kept).1⟩

end LibKprintf
