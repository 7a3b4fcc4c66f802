import KineIRCd.DaemonSteps
/-!
# After goodbye

`goodbye` clears a flag that is looked at when the connection has input, and
not between the lines of one chunk. So nothing is acted on in the chunks that
follow, but the rest of the chunk goes on, unless chunks end one line each.
-/
namespace KineIRCd.Daemon

open Irc2User (Site Self)

variable (site : Site)

/-- No line has had an effect after goodbye was said on its connection. -/
def Obeyed (w : World) : Prop :=
  ∀ this text goodbyeBeforeChunk goodbyeBefore hasUse acted,
    .line this text goodbyeBeforeChunk goodbyeBefore hasUse acted ∈ w.log → goodbyeBefore = true → acted = false

/-- After goodbye, the rest of the chunk has no line that there is a use for. -/
def nothingMore : Event → Bool
  | .line _ _ goodbyeBeforeChunk goodbyeBefore hasUse _ => !(goodbyeBefore && !goodbyeBeforeChunk && hasUse)
  | _ => true

/-- Goodbye is for good: the connection is closed, and no chunk of it is read after that. -/
structure ObeyedInv (w : World) : Prop where
  closed : ∀ c, .goodbye c ∈ w.log → c < w.allocated ∧ w.isConnected c = false
  lines : Obeyed w

section
variable {w w' : World} {c this : Nat}

/-- What says no goodbye and parses no line keeps the invariant. -/
theorem ObeyedInv.congr (h : ObeyedInv w) (hallocated : w.allocated ≤ w'.allocated)
    (hclosed : ∀ c, c < w.allocated → w.isConnected c = false → w'.isConnected c = false)
    (hgoodbye : ∀ c, .goodbye c ∈ w'.log → .goodbye c ∈ w.log)
    (hlines : ∀ this text gbc gb use acted, Event.line this text gbc gb use acted ∈ w'.log →
      .line this text gbc gb use acted ∈ w.log) : ObeyedInv w' where
  closed c hc := by
    obtain ⟨hlt, hbefore⟩ := h.closed c (hgoodbye c hc)
    exact ⟨by omega, hclosed c hlt hbefore⟩
  lines this text gbc gb use acted hl := h.lines this text gbc gb use acted (hlines this text gbc gb use acted hl)

theorem ObeyedInv.frame (h : ObeyedInv w) (hf : w.Frame w') (hlog : w'.log = w.log) : ObeyedInv w' :=
  h.congr (by rw [hf.allocated]) (fun c _ => hf.closed c) (by simp [hlog]) (by simp [hlog])

theorem ObeyedInv.goodbye (h : ObeyedInv w) (hc : c < w.allocated) : ObeyedInv (w.goodbye c) where
  closed c' hc' := by
    by_cases heq : c' = c
    · rw [heq]
      exact ⟨hc, World.isConnected_goodbye w c⟩
    · have hbefore : .goodbye c' ∈ w.log := by simpa [World.goodbye, World.record, World.modifyConnection, heq] using hc'
      obtain ⟨hlt, hclosed⟩ := h.closed c' hbefore
      exact ⟨hlt, (World.Frame.goodbye w c).closed c' hclosed⟩
  lines this text gbc gb use acted hl :=
    h.lines this text gbc gb use acted (by simpa [World.goodbye, World.record, World.modifyConnection] using hl)

end

theorem keeps_obeyed (c this : Nat) : Keeps site c this false nothingMore ObeyedInv where
  own g w _ h hg := h.frame (.evolve hg) rfl
  setInputQueue q w _ h := h.frame (.setInputQueue w this q) rfl
  rand n w _ h := h.frame (.setRand w n) rfl
  goodbye w hw h _ := h.goodbye (hw.wellFormed.connection_lt c hw.live)
  deliver receiver line w _ h _ := h.congr (Nat.le_refl _) (fun c' _ => (World.Frame.deliver w c receiver line).closed c')
    (by simp [World.deliver, World.record, World.outputLine, World.modifyProtocol])
    (by simp [World.deliver, World.record, World.outputLine, World.modifyProtocol])
  leave self error w _ hc _ hw h _ := by
    subst hc
    have hlt := hw.wellFormed.connection_lt _ hw.live
    have hquit : ObeyedInv (w.quit ⟨self.this, self.user.nickname⟩) :=
      h.congr (Nat.le_refl _) (fun _ _ h => h) (by simp [World.quit, World.record]) (by simp [World.quit, World.record])
    have hsend := hquit.frame (.outputLine _ self.this (LibIRC2.formatMessage LibIRC2.errorCommandName [error])) rfl
    exact (hsend.goodbye hlt).goodbye hlt
  create r w _ _ h _ := by
    apply h.congr
    · rw [createProtocol_allocated]; omega
    · intro c' _
      rw [createProtocol_isConnected]; exact id
    · simp [createProtocol_log, createEvent]
    · simp [createProtocol_log, createEvent]
  line text goodbyeBefore use acted w hacted _ h hG := by
    refine ⟨fun c' hc' => h.closed c' (by simpa [World.record] using hc'), ?_⟩
    intro this' text' gbc gb use' acted' hl hgb
    rcases List.mem_append.1 hl with hl | hl
    · exact h.lines this' text' gbc gb use' acted' hl hgb
    · -- the new line had no use if goodbye came before it
      have hevent := hG _ (List.mem_append_right w.log hl)
      simp only [List.mem_singleton, Event.line.injEq] at hl
      obtain ⟨-, -, rfl, rfl, rfl, rfl⟩ := hl
      have huse : use' = false := by simpa [nothingMore, hgb] using hevent
      by_contra hact
      have hwas := hacted (by simpa using hact)
      simp [huse] at hwas

theorem steps_obeyed : Steps site nothingMore ObeyedInv where
  time t w _ h := h.frame (.setTime w t) rfl
  newConnection flags accepted w hw h _ := by
    cases accepted with
    | none => exact h
    | some socket =>
      apply h.congr (Nat.le_add_right _ 2)
      · intro c hc
        rw [newConnection_isConnected flags socket (by omega)]
        exact id
      · simp [newConnection, World.record]
      · simp [newConnection, World.record]
  handleInput c read w hw h hG := by
    refine handleInput_keeps site (M := fun _ => ObeyedInv) hw h hG (fun conn hconn hconnected => ⟨h, ?_⟩)
      (fun _ line h => h.frame (frame_receive c line w) rfl) (fun _ w _ h => h.frame (frame_wake c w) (wake_log c w))
    -- a connection that is read has not said goodbye
    have hsaid : w.saidGoodbye c = false := by
      by_contra hgone
      have hclosed := (h.closed c (by simpa [World.saidGoodbye] using hgone)).2
      simp [World.isConnected, hconn, hconnected] at hclosed
    rw [hsaid]
    exact keeps_obeyed site c conn.protocol
  sendOutput c written w _ h := h.frame (frame_sendOutput site c written w) (sendOutput_log site c written w)
  destroy c w _ h _ := by
    cases hc : w.connection c with
    | none => simpa [destroy, hc] using h
    | some conn =>
      apply h.congr
      · simp [destroy, hc, World.record]
      · intro c' _
        rw [destroy_isConnected hc]
        split_ifs
        · exact fun _ => rfl
        · exact id
      · simp [destroy, hc, World.record]
      · simp [destroy, hc, World.record]

theorem obeyedInv_reach (actions : List Action) (hG : Good nothingMore (reach site actions)) :
    ObeyedInv (reach site actions) := by
  refine (steps_obeyed site).reach ?_ actions hG
  obtain ⟨s, n, e⟩ := start_spec site
  rw [e]
  exact ⟨by simp, by simp [Obeyed]⟩

/-- Whatever the order of the steps: as long as goodbye ends the useful part of
a chunk, no line has an effect after goodbye was said on its connection. -/
theorem goodbye_obeyed (actions : List Action) (hG : Good nothingMore (reach site actions)) :
    Obeyed (reach site actions) :=
  (obeyedInv_reach site actions hG).lines

/-- A client that goes on after QUIT, with a command nobody has in the same
chunk and another in the next. -/
theorem goodbye_obeyed_after_quit : Obeyed (reach sampleSite
    [accepts 5, types 0 "NICK pickle\r\n", types 0 "PONG Z0\r\n", types 0 "USER user 0 host :name\r\n",
      types 0 "QUIT\r\nWAIT\r\n", types 0 "PRIVMSG pickle :hello\r\n"]) :=
  goodbye_obeyed sampleSite _ (by decide +kernel)

/-- A nickname is taken down from a client that has just quit. -/
theorem not_obeyed_of_nick_after_quit :
    .line 1 (octets "NICK pickle") false true true true ∈
        (reach sampleSite [accepts 5, types 0 "QUIT\r\nNICK pickle\r\n"]).log ∧
      ¬ Obeyed (reach sampleSite [accepts 5, types 0 "QUIT\r\nNICK pickle\r\n"]) := by
  have hmem : .line 1 (octets "NICK pickle") false true true true ∈
      (reach sampleSite [accepts 5, types 0 "QUIT\r\nNICK pickle\r\n"]).log := by decide +kernel
  exact ⟨hmem, fun h => absurd (h _ _ _ _ _ _ hmem rfl) (by decide)⟩

/-! ## One line at a time -/

/-- At most one line ends in the chunk. -/
def EndsOneLine (chunk : Octets) : Prop :=
  ∀ eolPos, findFirstOf Clbp.EOL_CR_LF chunk 0 = some eolPos →
    findFirstOf Clbp.EOL_CR_LF chunk (Clbp.Input.afterEol chunk eolPos) = none

section
variable {site} {w w' : World} {c this : Nat}

theorem Good.append {G : Event → Bool} {events : List Event} (h : Good G w) (hlog : w'.log = w.log ++ events)
    (hevents : ∀ e ∈ events, G e = true) : Good G w' := by
  intro e he
  rw [hlog] at he
  exact (List.mem_append.1 he).elim (h e) (hevents e)

/-- No message says of itself that it came after goodbye. -/
theorem keepsMessage_nothingMore (c this : Nat) : KeepsMessage site c this (fun _ => true) (Good nothingMore) where
  own _ _ _ h _ := h
  rand _ _ _ h := h
  goodbye _ _ h _ := h.append rfl (by simp [nothingMore])
  deliver _ _ _ _ h _ := h.append rfl (by simp [nothingMore])
  leave self error w _ _ _ _ h _ := h.append (leave_log self error w) (by simp [nothingMore])
  create _ _ _ _ h _ := h.append (createProtocol_log site _ _ _ _) (by simp [nothingMore, createEvent])

/-- The first line of a chunk came after no more goodbyes than the chunk. -/
theorem nothingMore_parseLine (hw : Handling c this w) (h : Good nothingMore w) (line : Octets) :
    Good nothingMore (parseLine site this (w.saidGoodbye c) line w) := by
  obtain ⟨p, hp, rfl⟩ := Option.map_eq_some_iff.1 hw.owner
  simp only [parseLine, hp]
  cases LibIRC2.parseLine line with
  | none => exact h.append rfl (by simp [nothingMore])
  | some m =>
    have hmessage := (@keepsMessage_nothingMore site p.connection this).protocolMessage hp m ⟨hw, fun _ => h⟩
    exact (hmessage.2 fun _ _ => rfl).append rfl (by simp [nothingMore])

theorem nothingMore_handleInput {chunk : Octets} (hone : EndsOneLine chunk) (hw : w.WellFormed)
    (h : Good nothingMore w) : Good nothingMore (handleInput site c (some chunk) w).2 := by
  cases hconnected : w.isConnected c with
  | false =>
    rw [handleInput_of_closed site hconnected]
    exact h
  | true =>
    obtain ⟨conn, hconn, hopen⟩ := isConnected_iff.1 hconnected
    rw [handleInput_some site hconn hopen, Good, wake_log]
    split_ifs
    · exact h
    · have hhandling : Handling c conn.protocol (receive c chunk w) :=
        (handling_of_hasProtocol hw ⟨conn, hconn, rfl⟩).frame (frame_receive c chunk w)
      have hparse : ∀ line, Good nothingMore (parseLine site conn.protocol (w.saidGoodbye c) line (receive c chunk w)) :=
        nothingMore_parseLine hhandling h
      show Good nothingMore ((input site conn.protocol (w.saidGoodbye c)).handleInputFrom chunk 0 (receive c chunk w))
      cases hfind : findFirstOf Clbp.EOL_CR_LF chunk 0 with
      | none =>
        rw [Clbp.Input.handleInputFrom_none hfind]
        exact h
      | some eolPos =>
        have htake : ∀ line, Good nothingMore
            ((input site conn.protocol (w.saidGoodbye c)).takeLine line (receive c chunk w)) := by
          intro line
          rw [Clbp.Input.takeLine]
          split_ifs
          · exact hparse _
          · exact hparse _
        rw [Clbp.Input.handleInputFrom_some hfind, Clbp.Input.resume]
        split_ifs
        · exact htake _
        · rw [Clbp.Input.handleInputFrom_none (hone eolPos hfind)]
          exact htake _

theorem nothingMore_act {x : Action} (hone : ∀ c chunk, x = .handleInput c (some chunk) → EndsOneLine chunk)
    (hw : w.WellFormed) (h : Good nothingMore w) : Good nothingMore (act site w x) := by
  cases x with
  | setTime t => exact h
  | newConnection flags accepted =>
    cases accepted with
    | none => exact h
    | some socket => exact h.append rfl (by simp [nothingMore])
  | handleInput c read =>
    cases read with
    | none =>
      rw [act, handleInput_none]
      exact h
    | some chunk => exact nothingMore_handleInput (hone c chunk rfl) hw h
  | sendOutput c written =>
    rw [act, Good, sendOutput_log]
    exact h
  | destroy c =>
    rw [act, destroy]
    split
    · exact h
    · exact h.append rfl (by simp [nothingMore])

end

/-- Clients whose chunks end one line each have no line left after goodbye. -/
theorem obeyed_of_one_line (actions : List Action)
    (hone : ∀ c chunk, .handleInput c (some chunk) ∈ actions → EndsOneLine chunk) : Obeyed (reach site actions) := by
  refine (obeyedInv_reach site actions ?_).lines
  induction actions using List.reverseRecOn with
  | nil =>
    obtain ⟨s, n, e⟩ := start_spec site
    rw [reach, List.foldl_nil, e]
    simp [Good]
  | append_singleton actions x ih =>
    rw [reach, List.foldl_append]
    exact nothingMore_act (fun c chunk hx => hone c chunk (by simp [hx])) (wellFormed_reach site actions)
      (ih fun c chunk hmem => hone c chunk (List.mem_append_left _ hmem))

end KineIRCd.Daemon
