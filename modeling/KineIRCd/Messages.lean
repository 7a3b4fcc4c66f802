import KineIRCd.Irc2
/-!
# IRC messages on the wire

What `LibIRC2::Input::parseLine` makes of a line that
`LibIRC2::Output::sendMessageFrom` wrote.
-/
namespace KineIRCd.LibIRC2

/-- A parameter that may stand before the last one. -/
structure Middle (p : Octets) : Prop where
  nonempty : p ≠ []
  space : SPACE ∉ p
  colon : p.head? ≠ some COLON

/-- The octets that no line may hold: NUL, LF and CR. -/
def unsendable : List UInt8 := [0, 10, 13]

/-- What `sendMessageFrom` may be given. -/
structure Sendable (origin command : Octets) (parameters : List Octets) : Prop where
  origin_nonempty : origin ≠ []
  origin_space : SPACE ∉ origin
  command_nonempty : command ≠ []
  command_space : SPACE ∉ command
  command_colon : command.head? ≠ some COLON
  parameters_nonempty : parameters ≠ []
  /-- There is no `sendMessageFrom` for more. -/
  parameters_length : parameters.length ≤ 9
  middle : ∀ p ∈ parameters.dropLast, Middle p
  clean : ∀ c ∈ origin ++ command ++ parameters.flatten, c ∉ unsendable

/-- The last parameter as `parseLine` rebuilds it. -/
def received (p : Octets) : Octets := if SPACE ∈ p ∧ SPACE ∉ p.dropLast then p.dropLast else p

/-- A space that is the last octet and the only one is lost. -/
theorem received_snoc {t : Octets} (h : SPACE ∉ t) : received (t ++ [SPACE]) = t := by
  rw [received, if_pos]
  · simp
  · simpa using h

theorem received_eq_self_iff (p : Octets) : received p = p ↔ ¬ ∃ t, p = t ++ [SPACE] ∧ SPACE ∉ t := by
  constructor
  · rintro h ⟨t, rfl, ht⟩
    rw [received_snoc ht] at h
    simpa using congrArg List.length h
  · intro h
    rw [received, if_neg]
    rintro ⟨hin, hinit⟩
    have hne : p ≠ [] := List.ne_nil_of_mem hin
    have hsplit : p = p.dropLast ++ [p.getLast hne] := (List.dropLast_append_getLast hne).symm
    have hlast : p.getLast hne = SPACE := by
      rw [hsplit, List.mem_append, List.mem_singleton] at hin
      rcases hin with hin | hin
      · exact absurd hin hinit
      · exact hin.symm
    apply h
    refine ⟨p.dropLast, ?_, hinit⟩
    rw [← hlast]
    exact hsplit

/-- The last parameter: its token runs up to the first space, and the rest of the line follows it. -/
theorem parseParameters_last (p : Octets) : parseParameters ⟨COLON :: p⟩ = [received p] := by
  rw [parseParameters]
  by_cases hin : SPACE ∈ p
  · obtain ⟨t, r, rfl, ht⟩ := List.eq_append_cons_of_mem hin
    have hcolon : SPACE ∉ COLON :: t := by simpa [SPACE, COLON] using ht
    have htok := StringTokens.nextToken_append hcolon r
    rw [List.cons_append] at htok
    rw [htok]
    cases r with
    | nil => simp [StringTokens.hasMoreTokens, received_snoc ht]
    | cons c r =>
      have hself : received (t ++ SPACE :: c :: r) = t ++ SPACE :: c :: r := by
        rw [received, if_neg]
        rintro ⟨-, hinit⟩
        apply hinit
        rw [List.dropLast_append_of_ne_nil (by simp)]
        simp
      simp [StringTokens.hasMoreTokens, StringTokens.rest, hself]
  · have hcolon : SPACE ∉ COLON :: p := by simpa [SPACE, COLON] using hin
    rw [StringTokens.nextToken_last hcolon]
    simp [StringTokens.hasMoreTokens, received, hin]

/-- A middle parameter is read as it is. -/
theorem parseParameters_middle {p : Octets} (h : Middle p) (rest : Octets) :
    parseParameters ⟨p ++ SPACE :: rest⟩ = p :: parseParameters ⟨rest⟩ := by
  have hmore : (⟨p ++ SPACE :: rest⟩ : StringTokens).hasMoreTokens = true := by simp [StringTokens.hasMoreTokens]
  rw [parseParameters, dif_pos hmore, StringTokens.nextToken_append h.space, if_neg h.colon]

/-- What follows the space after the command is read back as the parameters. -/
theorem parseParameters_format (init : List Octets) (p : Octets) (h : ∀ q ∈ init, Middle q) :
    ∃ text, formatParameters (init ++ [p]) = SPACE :: text ∧ parseParameters ⟨text⟩ = init ++ [received p] := by
  induction init with
  | nil =>
    refine ⟨COLON :: p, rfl, ?_⟩
    rw [parseParameters_last, List.nil_append]
  | cons q init ih =>
    obtain ⟨text, htext, hparse⟩ := ih (fun x hx => h x (List.mem_cons_of_mem q hx))
    have hfmt : formatParameters (q :: (init ++ [p])) = SPACE :: q ++ formatParameters (init ++ [p]) := by
      rw [formatParameters]
      simp
    refine ⟨q ++ SPACE :: text, ?_, ?_⟩
    · rw [List.cons_append, hfmt, htext, List.cons_append]
    · rw [parseParameters_middle (h q List.mem_cons_self), hparse, List.cons_append]

/-- The whole line: everything comes back but for what the last parameter may lose. -/
theorem parseLine_formatMessageFrom {origin command : Octets} {init : List Octets} {p : Octets}
    (h : Sendable origin command (init ++ [p])) :
    parseLine (formatMessageFrom origin command (init ++ [p])) =
      some ⟨origin, toUpper command, init ++ [received p]⟩ := by
  have hmiddle : ∀ q ∈ init, Middle q := by simpa using h.middle
  obtain ⟨text, htext, hparse⟩ := parseParameters_format init p hmiddle
  have horigin : SPACE ∉ COLON :: origin := by simpa [SPACE, COLON] using h.origin_space
  have hline : formatMessageFrom origin command (init ++ [p]) =
      (COLON :: origin) ++ SPACE :: (command ++ SPACE :: text) := by
    rw [formatMessageFrom, htext]
    simp
  have hcommand : toUpper command ≠ [] := by
    rw [toUpper, Ne, List.map_eq_nil_iff]
    exact h.command_nonempty
  have htok := StringTokens.nextToken_append horigin (command ++ SPACE :: text)
  rw [parseLine, hline]
  simp only [List.cons_append, List.head?_cons, if_true] at htok ⊢
  rw [htok]
  simp only [StringTokens.nextToken_append h.command_space, hparse, List.drop_succ_cons, List.drop_zero]
  rw [if_neg hcommand]

/-- A message is read back as it was sent exactly when the last parameter does not end in its only space. -/
theorem sendMessageFrom_round_trip (origin command : Octets) (parameters : List Octets)
    (h : Sendable origin command parameters) :
    parseLine (formatMessageFrom origin command parameters) = some ⟨origin, toUpper command, parameters⟩ ↔
      ¬ ∃ t, parameters.getLast h.parameters_nonempty = t ++ [SPACE] ∧ SPACE ∉ t := by
  have hsplit := List.dropLast_append_getLast h.parameters_nonempty
  rw [← received_eq_self_iff]
  generalize parameters.getLast h.parameters_nonempty = p at *
  generalize parameters.dropLast = init at *
  subst hsplit
  rw [parseLine_formatMessageFrom h]
  simp

theorem sendable_ping : Sendable (octets "irc.org") (octets "PING") [octets "foo "] := by
  refine ⟨by decide, by decide, by decide, by decide, by decide, by decide, by decide, ?_, by decide +kernel⟩
  simp

/-- `foo ` comes back without its space. -/
theorem sendMessageFrom_loses_space :
    Sendable (octets "irc.org") (octets "PING") [octets "foo "] ∧
      parseLine (formatMessageFrom (octets "irc.org") (octets "PING") [octets "foo "]) =
        some ⟨octets "irc.org", octets "PING", [octets "foo"]⟩ ∧ octets "foo" ≠ octets "foo " := by
  refine ⟨sendable_ping, ?_, by decide⟩
  rw [show [octets "foo "] = [] ++ [octets "foo "] from rfl, parseLine_formatMessageFrom sendable_ping]
  decide

/-- Text with more than the one space comes back whole. -/
theorem sendMessageFrom_round_trip_text :
    parseLine (formatMessageFrom (octets "irc.org") (octets "notice") [octets "#a", octets " : hi "]) =
      some ⟨octets "irc.org", toUpper (octets "notice"), [octets "#a", octets " : hi "]⟩ := by
  have hmiddle : ∀ p ∈ [octets "#a", octets " : hi "].dropLast, Middle p := by
    intro p hp
    obtain rfl : p = octets "#a" := by simpa using hp
    exact ⟨by decide, by decide, by decide⟩
  apply (sendMessageFrom_round_trip _ _ _
    ⟨by decide, by decide, by decide, by decide, by decide, by decide, by decide, hmiddle, by decide +kernel⟩).2
  rintro ⟨t, hlast, hspace⟩
  have ht : t = (octets " : hi ").dropLast := by
    rw [show octets " : hi " = t ++ [SPACE] from hlast]
    simp
  rw [ht] at hspace
  exact absurd hspace (by decide)

/-! ## Numerics -/

theorem mem_numericField {n : Nat} {c : UInt8} (h : c ∈ numericField n) : 48 ≤ c ∧ c ≤ 57 := by
  rcases List.mem_append.1 h with h | h
  · rw [List.eq_of_mem_replicate h]
    decide
  · exact mem_decimal h

theorem toUpper_numericField (n : Nat) : toUpper (numericField n) = numericField n := by
  refine (List.map_congr_left fun c hc => ?_).trans (List.map_id _)
  rw [toUpperOctet, if_neg]
  · rfl
  · rintro ⟨h, -⟩
    exact absurd (UInt8.le_trans h (mem_numericField hc).2) (by decide)

theorem numericField_ne_nil (n : Nat) : numericField n ≠ [] := by
  intro h
  obtain ⟨hzeros, hdigits⟩ := List.append_eq_nil_iff.1 h
  simp [hdigits] at hzeros

/-- A numeric that is sent is read back with its nickname and its parameters. -/
theorem parseLine_formatNumeric {server nickname : Octets} (numeric : Nat) {init : List Octets} (p : Octets)
    (hserver : SPACE ∉ server) (hnickname : Middle nickname) (hinit : ∀ q ∈ init, Middle q) :
    parseLine (formatNumeric server nickname numeric (init ++ [p])) =
      some ⟨server, numericField numeric, nickname :: init ++ [received p]⟩ := by
  obtain ⟨text, htext, hparse⟩ := parseParameters_format (nickname :: init) p (by simpa using ⟨hnickname, hinit⟩)
  have hparameters : SPACE :: nickname ++ formatParameters (init ++ [p]) = SPACE :: text := by
    rw [← htext, List.cons_append, List.cons_append, formatParameters]
    · rfl
    · simp
  have hline : formatNumeric server nickname numeric (init ++ [p]) =
      (COLON :: server) ++ SPACE :: (numericField numeric ++ SPACE :: text) := by
    rw [formatNumeric, List.append_assoc, hparameters]
    simp
  have hcolon : SPACE ∉ COLON :: server := by simpa [SPACE, COLON] using hserver
  have hcommand : SPACE ∉ numericField numeric := fun h => absurd (mem_numericField h).1 (by decide)
  have htok := StringTokens.nextToken_append hcolon (numericField numeric ++ SPACE :: text)
  rw [parseLine, hline]
  simp only [List.cons_append, List.head?_cons, if_true] at htok ⊢
  rw [htok]
  simp only [StringTokens.nextToken_append hcommand, hparse, List.drop_succ_cons, List.drop_zero, toUpper_numericField]
  rw [if_neg (numericField_ne_nil numeric), List.cons_append]

theorem formatParameters_concat (init : List Octets) (p : Octets) :
    formatParameters (init ++ [p]) = init.flatMap (SPACE :: ·) ++ SPACE :: COLON :: p := by
  induction init with
  | nil => rfl
  | cons q init ih =>
    rw [List.cons_append, formatParameters, ih, List.flatMap_cons, List.append_assoc]
    simp

/-- Parameters with spaces between them may be given as one. -/
theorem formatParameters_joined {line : List Octets} (hline : ∀ p ∈ line, p ≠ []) (hne : line ≠ []) (p : Octets) :
    formatParameters [joinDelimited SPACE line, p] = formatParameters (line ++ [p]) := by
  obtain ⟨first, line, rfl⟩ := List.exists_cons_of_ne_nil hne
  have hjoined : joinDelimited SPACE (first :: line) = first ++ line.flatMap (SPACE :: ·) := by
    rw [joinDelimited_cons _ (hline first List.mem_cons_self), intercalate_cons_eq]
  rw [show [joinDelimited SPACE (first :: line), p] = [joinDelimited SPACE (first :: line)] ++ [p] from rfl,
    formatParameters_concat, formatParameters_concat, hjoined, List.flatMap_singleton, List.flatMap_cons]
  simp

end KineIRCd.LibIRC2
