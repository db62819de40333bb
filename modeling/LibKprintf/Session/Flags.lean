import LibKprintf.Session.Objects

/-! The bits of the event flag `g_evid`: who sets which of them, and who clears them.
-/

namespace LibKprintf

variable {cfg : Config}

/-- One of the bits of a mask is set in the event flag. -/
def Shared.flagged (sh : Shared cfg) (mask : U32) : Prop := sh.flag &&& mask ≠ 0

instance (sh : Shared cfg) (mask : U32) : Decidable (sh.flagged mask) :=
  inferInstanceAs (Decidable (_ ≠ _))

/-- Setting bits sets the masks they belong to and keeps the others. -/
theorem flagged_setEventFlag {sh : Shared cfg} {bits mask : U32}
    (flag : (sh.k.evflags sh.g.gEvid).isSome = true)
    : (sh.setEventFlag bits).flagged mask ↔ sh.flagged mask ∨ bits &&& mask ≠ 0 := by
  obtain ⟨old, flag⟩ := Option.isSome_iff_exists.mp flag
  have now : (sh.setEventFlag bits).flag = old ||| bits := by
    simp [Shared.flag, Shared.setEventFlag, Kernel.sceKernelSetEventFlag, flag]
  have before : sh.flag = old := by simp [Shared.flag, flag]
  simp only [Shared.flagged, now, before, BitVec.and_or_distrib_right, ne_eq,
    BitVec.ofNat_eq_ofNat, BitVec.or_eq_zero_iff]
  tauto

/-- So it is wherever the event flag has these bits. -/
theorem flagged_of_set {sh sh' : Shared cfg} {bits mask : U32}
    (flag : (sh.k.evflags sh.g.gEvid).isSome = true)
    (set : sh'.flag = (sh.setEventFlag bits).flag)
    : sh'.flagged mask ↔ sh.flagged mask ∨ bits &&& mask ≠ 0 := by
  rw [← flagged_setEventFlag flag, Shared.flagged, Shared.flagged, set]

/-- A wait that ends has read the bits, and clears those of its pattern only. -/
theorem takeEventFlag_flag {sh : Shared cfg} {evid : Uid} {pattern ev : U32} {k : Kernel}
    (took : sh.k.takeEventFlag evid pattern = some (k, ev)) (own : evid = sh.g.gEvid)
    : sh.flag = ev ∧ ({ sh with k := k } : Shared cfg).flag = ev &&& ~~~pattern := by
  subst own
  unfold Kernel.takeEventFlag at took
  split at took
  · contradiction
  · rename_i bits flag
    split at took
    · contradiction
    · cases took
      simp [Shared.flag, flag]

/-- Clearing a pattern does not touch the masks outside of it. -/
theorem takeEventFlag_flagged {sh : Shared cfg} {evid : Uid} {pattern ev : U32} {k : Kernel}
    (mask : U32) (took : sh.k.takeEventFlag evid pattern = some (k, ev)) (own : evid = sh.g.gEvid)
    (apart : ~~~pattern &&& mask = mask)
    : ({ sh with k := k } : Shared cfg).flagged mask ↔ sh.flagged mask := by
  obtain ⟨before, now⟩ := takeEventFlag_flag took own
  simp only [Shared.flagged, before, now, BitVec.and_assoc, apart]

/-- The event flag is the same while its id and the flags are. -/
theorem flag_of_same {sh sh' : Shared cfg} (gEvid : sh'.g.gEvid = sh.g.gEvid)
    (evflags : sh'.k.evflags = sh.k.evflags)
    : sh'.flag = sh.flag := by
  simp only [Shared.flag, gEvid, evflags]

/-- An accepted Kprintf call sets EV_FLUSH, and no Kprintf call touches another bit. -/
theorem kprintf_flag {sh sh' : Shared cfg} {call} (printed : kprintf sh call = .next sh')
    (flag : (sh.k.evflags sh.g.gEvid).isSome = true)
    : (sh' = sh ∨ sh.g.gState = .started ∧ sh'.flagged evFlush)
      ∧ ∀ mask, evFlush &&& mask = 0 → (sh'.flagged mask ↔ sh.flagged mask) := by
  obtain rfl | ⟨started, head, mem, stamp, body, rfl⟩ := kprintf_effect printed
  · exact ⟨Or.inl rfl, fun _ _ => Iff.rfl⟩
  · have set (mask : U32) : ((sh.withQueue head mem).setEventFlag evFlush).flagged mask
        ↔ sh.flagged mask ∨ evFlush &&& mask ≠ 0 :=
      flagged_setEventFlag flag
    refine ⟨Or.inr ⟨started, (set evFlush).mpr (Or.inr (by decide))⟩, fun mask apart => ?_⟩
    refine (set mask).trans ⟨?_, Or.inl⟩
    rintro (old | new)
    · exact old
    · exact absurd apart new

/-- An API function touches the event flag only by the Kprintf call it may make. -/
theorem ApiEffect.flags {thread : ThreadRef} {sh sh' : Shared cfg} {pc pc' : ApiPc}
    (effect : ApiEffect thread sh pc sh' pc')
    : sh'.flag = sh.flag ∨ ∃ during, kprintf sh during = .next sh' := by
  cases effect with
  | acquire _ took =>
      obtain ⟨semas, rfl⟩ := takeSema_shape took
      exact Or.inl (flag_of_same rfl rfl)
  | release =>
      obtain ⟨semas, same⟩ := signalSema_shape sh.k sh.g.gSemid
      exact Or.inl (flag_of_same rfl (by rw [same]))
  | announce printed =>
      rcases printed with rfl | printed
      · exact Or.inl rfl
      · exact Or.inr printed
  | refuse | work | dipsw | hook => exact Or.inl (flag_of_same rfl rfl)

/-- So does a running API call. -/
theorem apiCallStep_flags {thread : ThreadRef} {call : ApiCall} {sh sh' : Shared cfg}
    {api : ApiPc} {api' : Option ApiPc} {choice : Choice cfg}
    (stepped : apiCallStep thread call sh api choice = .next (sh', api'))
    : sh'.flag = sh.flag ∨ ∃ during, kprintf sh during = .next sh' := by
  obtain ⟨ret, rfl, rfl, rfl⟩ | ⟨pc', ran, rfl⟩ := apiCallStep_cases stepped
  · exact Or.inl (flag_of_same rfl rfl)
  · exact (apiStep_effect ran).flags

/-- So does a client. -/
theorem ClientEffect.flags {n : Nat} {sh sh' : Shared cfg} {pc pc' : ClientPc}
    (effect : ClientEffect n sh pc sh' pc')
    : sh'.flag = sh.flag ∨ ∃ during, kprintf sh during = .next sh' := by
  cases effect with
  | enter | leave => exact Or.inl (flag_of_same rfl rfl)
  | run stepped => exact (apiStep_effect stepped).flags

/-- How a step of the event thread changes the event flag: not at all, by a Kprintf call, by
taking the bits it waits for, or by setting a bit of its own.
-/
inductive EventFlagMove (sh sh' : Shared cfg) : EventPc → EventPc → Prop
  | stays {pc pc'} (same : sh'.flag = sh.flag) : EventFlagMove sh sh' pc pc'
  | prints {pc pc' during} (printed : kprintf sh during = .next sh') : EventFlagMove sh sh' pc pc'
  | wakes {evid ev} (before : sh.flag = ev)
    (now : sh'.flag = ev &&& ~~~(evFlush ||| evTerminate))
    : EventFlagMove sh sh' (.waitFlag evid) (.testFlush ev)
  | resends {ev} (set : sh'.flag = (sh.setEventFlag evFlush).flag)
    : EventFlagMove sh sh' (.resend ev) (.resendDelay ev)
  | stopOk (set : sh'.flag = (sh.setEventFlag evStopOk).flag)
    : EventFlagMove sh sh' .stopOk .returning

/-- The flag move of the event thread, whose captured id is `g_evid`. -/
theorem EventEffect.flags {thid : Uid} {sh sh' : Shared cfg} {pc pc' : EventPc}
    (effect : EventEffect thid sh pc sh' pc')
    (captured : ∀ evid, pc = .waitFlag evid → evid = sh.g.gEvid)
    : EventFlagMove sh sh' pc pc' := by
  have called {pc pc' : EventPc}
      (moves : sh'.flag = sh.flag ∨ ∃ during, kprintf sh during = .next sh') :
      EventFlagMove sh sh' pc pc' := by
    rcases moves with same | ⟨during, printed⟩
    · exact .stays same
    · exact .prints printed
  cases effect with
  | register stepped => exact called (apiCallStep_flags stepped)
  | flush stepped =>
      cases flushStep_effect stepped with
      | nested inner => exact called (apiCallStep_flags inner)
      | read | observe | callbackReturns | callbackCalls | remove =>
          exact .stays (flag_of_same rfl rfl)
  | wake took =>
      obtain ⟨before, now⟩ := takeEventFlag_flag took (captured _ rfl)
      exact .wakes before now
  | acquire took =>
      obtain ⟨semas, rfl⟩ := takeSema_shape took
      exact .stays (flag_of_same rfl rfl)
  | release =>
      obtain ⟨semas, same⟩ := signalSema_shape sh.k sh.g.gSemid
      exact .stays (flag_of_same rfl (by rw [same]))
  | resend => exact .resends rfl
  | stopOk => exact .stopOk rfl
  | move | callRegister => exact .stays (flag_of_same rfl rfl)

end LibKprintf
