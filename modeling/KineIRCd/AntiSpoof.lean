import KineIRCd.Lib.Runs
import KineIRCd.RegistrarSteps
/-!
# The anti-spoof pings

A user protocol is created only after as many pongs as the registrar asks for.
Each should answer a ping; but before the first ping `pongMatch` is empty, and
a PONG with an empty parameter equals it.
-/
namespace KineIRCd.Irc2Registrar.AntiSpoof

open LibIRC2 Session

/-! ## Pings and pongs of a trace -/

/-- The tokens of the pings sent. -/
def pings (trace : List Event) : List Octets :=
  trace.filterMap fun | .ping t => some t | _ => none

/-- The tokens pongs were accepted for. -/
def pongs (trace : List Event) : List Octets :=
  trace.filterMap fun | .pong t => some t | _ => none

section
variable (trace : List Event) (t : Octets) (type : RegistrationType)

@[simp] theorem pings_ping : pings (trace ++ [.ping t]) = pings trace ++ [t] := by simp [pings]
@[simp] theorem pings_pong : pings (trace ++ [.pong t]) = pings trace := by simp [pings]
@[simp] theorem pings_create : pings (trace ++ [.create type]) = pings trace := by simp [pings]
@[simp] theorem pongs_ping : pongs (trace ++ [.ping t]) = pongs trace := by simp [pongs]
@[simp] theorem pongs_pong : pongs (trace ++ [.pong t]) = pongs trace ++ [t] := by simp [pongs]
@[simp] theorem pongs_create : pongs (trace ++ [.create type]) = pongs trace := by simp [pongs]

end

/-- No pong is accepted for a token that was not sent before it, or used up,
and a user protocol is created only after `n` of them. -/
structure Answered (n : Nat) (trace : List Event) : Prop where
  sent : ∀ t, (pongs trace).count t ≤ (pings trace).count t
  created : trace.getLast? = some (.create .user) → (pongs trace).length = n

/-- `Answered` at every moment of the run. -/
def Safe (n : Nat) (trace : List Event) : Prop := ∀ pre, pre <+: trace → Answered n pre

theorem safe_nil (n : Nat) : Safe n [] := by
  intro pre h
  rw [List.prefix_nil.1 h]
  exact ⟨by simp [pings, pongs], by simp⟩

theorem Safe.concat {n : Nat} {trace : List Event} {e : Event} (h : Safe n trace) (he : Answered n (trace ++ [e])) :
    Safe n (trace ++ [e]) := by
  intro pre hpre
  rcases List.prefix_concat_iff.1 hpre with rfl | hpre
  · exact he
  · exact h pre hpre

/-! ## Runs -/

variable (env : Env)

/-- One message, parsed while the registry is as given. -/
def step (s : Session) (input : Registry × Message) : Session := (s.parseMessage env input.1 input.2).1

/-- A registrar that asks for `n` pongs. -/
def start (listener : ListenerFlags) (n rand : Nat) : Session := { this := { listener, pongsLeft := n }, rand }

/-- The message is no PONG with an empty parameter before the first ping. -/
def NoEarlyPong (s : Session) (input : Registry × Message) : Prop :=
  ¬ (input.2.command = octets "PONG" ∧ 0 < s.this.pongsLeft ∧ s.this.pongMatch = [] ∧
    input.2.parameters.head? = some [])

/-- The tokens sent so far are those used up, and the one waited for. -/
structure Inv (n : Nat) (s : Session) : Prop where
  safe : Safe n s.trace
  left : (pongs s.trace).length + s.this.pongsLeft = n
  waiting : pings s.trace = pongs s.trace ++ if 0 < s.this.pongsLeft ∧ s.this.pongMatch ≠ [] then [s.this.pongMatch] else []

variable {env} {s s' : Session} {n : Nat} {input : Registry × Message}

theorem inv_start (listener : ListenerFlags) (n rand : Nat) : Inv n (start listener n rand) :=
  ⟨safe_nil n, by simp [start, pongs], by simp [start, pings, pongs]⟩

theorem Inv.congr (h : Inv n s) (e : s'.exchange = s.exchange) : Inv n s' := by
  simp only [exchange, Prod.mk.injEq] at e
  obtain ⟨hleft, hmatch, htrace⟩ := e
  obtain ⟨hsafe, hn, hwaiting⟩ := h
  constructor
  · rwa [htrace]
  · rwa [htrace, hleft]
  · rwa [htrace, hleft, hmatch]

/-- With the tokens sent equal to those used up, but for one that is still
waited for, no pong was accepted out of turn. -/
theorem answered_of_pings {trace : List Event} {rest : List Octets} (h : pings trace = pongs trace ++ rest)
    (hcreate : trace.getLast? ≠ some (.create .user)) : Answered n trace :=
  ⟨fun t => by rw [h, List.count_append]; omega, fun e => absurd e hcreate⟩

/-- A command keeps the invariant, if it is no early pong. -/
theorem inv_dispatch (h : Inv n s) (hm : NoEarlyPong s input) : Inv n (s.dispatch env input.1 input.2) := by
  obtain ⟨hsafe, hn, hwaiting⟩ := h
  have htoken := env.token_ne_nil s.rand
  rcases exchange_dispatch env input.1 s input.2 with
    ⟨-, e⟩ | ⟨-, hleft, hmatch, e⟩ | ⟨hc, hhead, hmore, e⟩ | ⟨hc, hhead, hone, e⟩
  · exact Inv.congr ⟨hsafe, hn, hwaiting⟩ e
  · simp only [exchange, Prod.mk.injEq] at e
    obtain ⟨e1, e2, e3⟩ := e
    rw [if_neg (by simp [hmatch]), List.append_nil] at hwaiting
    have hpings : pings (s.trace ++ [.ping (env.token s.rand)]) =
        pongs (s.trace ++ [.ping (env.token s.rand)]) ++ [env.token s.rand] := by simp [hwaiting]
    refine ⟨?_, ?_, ?_⟩
    · rw [e3]; exact hsafe.concat (answered_of_pings hpings (by simp))
    · rw [e3, e1, pongs_ping]; exact hn
    · rw [e3, e1, e2, if_pos ⟨hleft, htoken⟩]; exact hpings
  all_goals
    have hmatch : s.this.pongMatch ≠ [] := fun e => hm ⟨hc, by omega, e, by rw [hhead, e]⟩
    simp only [exchange, Prod.mk.injEq] at e
    obtain ⟨e1, e2, e3⟩ := e
    rw [if_pos ⟨by omega, hmatch⟩] at hwaiting
    have hpong : pings (s.trace ++ [.pong s.this.pongMatch]) = pongs (s.trace ++ [.pong s.this.pongMatch]) ++ [] := by
      simp [hwaiting]
    have hsafe' := hsafe.concat (answered_of_pings hpong (by simp))
  · have hping : pings (s.trace ++ [.pong s.this.pongMatch] ++ [.ping (env.token s.rand)]) =
        pongs (s.trace ++ [.pong s.this.pongMatch] ++ [.ping (env.token s.rand)]) ++ [env.token s.rand] := by
      rw [pings_ping, pongs_ping, hpong, List.append_nil]
    refine ⟨?_, ?_, ?_⟩
    · rw [e3]; exact hsafe'.concat (answered_of_pings hping (by simp))
    · rw [e3, e1, pongs_ping, pongs_pong, List.length_append, List.length_singleton]; omega
    · rw [e3, e1, e2, if_pos ⟨by omega, htoken⟩]; exact hping
  · refine ⟨?_, ?_, ?_⟩
    · rw [e3]; exact hsafe'
    · rw [e3, e1, pongs_pong, List.length_append, List.length_singleton]; omega
    · rw [e3, e1, if_neg (by simp)]; exact hpong

theorem inv_step (h : Inv n s) (hm : NoEarlyPong s input) : Inv n (step env s input) := by
  have hd : Inv n (s.dispatch env input.1 input.2) := inv_dispatch h hm
  rcases exchange_parseMessage env input.1 s input.2 with ⟨e, -⟩ | ⟨hcomplete, e⟩
  · exact hd.congr e
  · obtain ⟨hsafe, hn, hwaiting⟩ := hd
    simp only [exchange, Prod.mk.injEq] at e
    obtain ⟨e1, e2, e3⟩ := e
    refine ⟨?_, ?_, ?_⟩
    · rw [step, e3]
      refine hsafe.concat ⟨?_, ?_⟩
      · intro t
        rw [pings_create, pongs_create, hwaiting, List.count_append]; omega
      · intro hlast
        -- a complete user registration has no pong left
        have htype : (s.dispatch env input.1 input.2).this.registrationType = .user := by simpa using hlast
        rw [Complete, htype] at hcomplete
        have hleft : (s.dispatch env input.1 input.2).this.pongsLeft = 0 := hcomplete.2.2.2
        rw [pongs_create]
        omega
    · rw [step, e3, e1, pongs_create]; exact hn
    · rw [step, e3, e1, e2, pongs_create, pings_create]; exact hwaiting

/-! ## Early pongs -/

/-- Only the command itself sends a ping or takes a pong. -/
theorem exchanged_step (env : Env) (s : Session) (input : Registry × Message) :
    pings (step env s input).trace = pings (s.dispatch env input.1 input.2).trace ∧
      pongs (step env s input).trace = pongs (s.dispatch env input.1 input.2).trace := by
  rcases exchange_parseMessage env input.1 s input.2 with ⟨e, -⟩ | ⟨-, e⟩
  all_goals
    simp only [exchange, Prod.mk.injEq] at e
    rw [step, e.2.2]
  · exact ⟨rfl, rfl⟩
  · exact ⟨pings_create _ _, pongs_create _ _⟩

/-- An empty pong has been accepted. -/
def Tricked (s : Session) : Prop := [] ∈ pongs s.trace

theorem tricked_step (h : Tricked s) : Tricked (step env s input) :=
  ((frame_parseMessage env input.1 s input.2).trace.filterMap _).subset h

theorem tricked_of_early (h : ¬ NoEarlyPong s input) : Tricked (step env s input) := by
  obtain ⟨hc, hleft, hmatch, hhead⟩ := not_not.1 h
  have hd : Tricked (s.dispatch env input.1 input.2) := by
    unfold Tricked
    rcases exchange_dispatch env input.1 s input.2 with
      ⟨hno, -⟩ | ⟨hnick, -⟩ | ⟨-, -, -, e⟩ | ⟨-, -, -, e⟩
    · exact absurd ⟨hc, hleft, hmatch ▸ hhead⟩ hno
    · exact absurd (hnick.symm.trans hc) (by decide)
    all_goals
      simp only [exchange, Prod.mk.injEq] at e
      rw [e.2.2, hmatch]
      simp only [pongs_ping, pongs_pong, List.mem_append, List.mem_singleton, or_true]
  rwa [Tricked, (exchanged_step env s input).2]

/-- No ping is empty. -/
def Real (s : Session) : Prop := [] ∉ pings s.trace

theorem real_step (h : Real s) : Real (step env s input) := by
  have htoken := env.token_ne_nil s.rand
  have hd : Real (s.dispatch env input.1 input.2) := by
    unfold Real at h ⊢
    rcases exchange_dispatch env input.1 s input.2 with ⟨-, e⟩ | ⟨-, -, -, e⟩ | ⟨-, -, -, e⟩ | ⟨-, -, -, e⟩
    · rwa [show (s.dispatch env input.1 input.2).trace = s.trace from congrArg (·.2.2) e]
    all_goals
      simp only [exchange, Prod.mk.injEq] at e
      rw [e.2.2]
      simp only [pings_ping, pings_pong, List.mem_append, List.mem_singleton, htoken.symm, or_false]
      exact h
  rwa [Real, (exchanged_step env s input).1]

theorem not_safe_of_tricked (h : Tricked s) (hreal : Real s) : ¬ Safe n s.trace := fun hsafe => by
  have hsent := (hsafe s.trace (List.prefix_refl _)).sent []
  have hpong : 0 < (pongs s.trace).count [] := List.count_pos_iff.2 h
  rw [List.count_eq_zero.2 hreal] at hsent
  omega

theorem tricked_of_not_along {inputs : List (Registry × Message)}
    (h : ¬ Runs.Along (step env) NoEarlyPong s inputs) : Tricked (inputs.foldl (step env) s) := by
  induction inputs generalizing s with
  | nil => exact absurd trivial h
  | cons input inputs ih =>
    rw [List.foldl_cons]
    by_cases hm : NoEarlyPong s input
    · exact ih fun hrest => h ⟨hm, hrest⟩
    · exact Runs.run_keeps (fun _ _ => tricked_step) (tricked_of_early hm)

/-- Over every sequence of messages, the pongs answer the pings exactly when no
empty PONG comes before the first ping. -/
theorem safe_iff (env : Env) (listener : ListenerFlags) (n rand : Nat) (inputs : List (Registry × Message)) :
    Safe n (inputs.foldl (step env) (start listener n rand)).trace ↔
      Runs.Along (step env) NoEarlyPong (start listener n rand) inputs := by
  constructor
  · intro hsafe
    by_contra h
    have hreal : Real (inputs.foldl (step env) (start listener n rand)) :=
      Runs.run_keeps (fun _ _ => real_step) (by simp [Real, start, pings])
    exact not_safe_of_tricked (tricked_of_not_along h) hreal hsafe
  · intro h
    exact (Runs.run_inv (fun _ _ => inv_step) (inv_start listener n rand) h).safe

/-- A user who answers before being asked. -/
def earlyPong : List (Registry × Message) :=
  [({}, ⟨[], octets "PONG", [[]]⟩), ({}, ⟨[], octets "NICK", [octets "pickle"]⟩),
   ({}, ⟨[], octets "USER", [octets "pickle", octets "0", octets "host", octets "Simon"]⟩)]

/-- The registration completes without any ping. -/
theorem not_safe_earlyPong :
    (earlyPong.foldl (step .sample) (start .all 1 0)).trace = [.pong [], .create .user] ∧
      ¬ Safe 1 (earlyPong.foldl (step .sample) (start .all 1 0)).trace := by
  have htrace : (earlyPong.foldl (step .sample) (start .all 1 0)).trace = [.pong [], .create .user] := by decide +kernel
  refine ⟨htrace, ?_⟩
  intro h
  rw [htrace] at h
  exact absurd ((h _ (List.prefix_refl _)).sent []) (by decide)

end KineIRCd.Irc2Registrar.AntiSpoof
