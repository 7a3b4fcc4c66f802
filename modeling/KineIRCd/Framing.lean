import KineIRCd.Clbp
/-!
# Line framing

`Input::handleInput` against the lines of the stream. A chunk whose last line
is unfinished is buffered whole, line ends and parsed lines included, so the
framing follows the stream only while each chunk with a line end stops at one.
-/
namespace KineIRCd.Framing

open Clbp Lines

/-- An object that records what `parseLine` is given. -/
structure Recorder where
  inputQueue : Octets
  parsed : List Octets
  deriving DecidableEq

def recorder : Input Recorder where
  inputQueue r := r.inputQueue
  setInputQueue q r := { r with inputQueue := q }
  parseLine line r := { r with parsed := r.parsed ++ [line] }

/-- Feed chunks in order, starting with nothing buffered. -/
def feed (chunks : List Octets) : Recorder := chunks.foldl (fun r c => recorder.handleInput c r) ⟨[], []⟩

/-! ## One chunk -/

/-- The non-empty strings among `l`. -/
def nonEmpty (l : List Octets) : List Octets := l.filter (fun s => !s.isEmpty)

@[simp] theorem nonEmpty_append (l m : List Octets) : nonEmpty (l ++ m) = nonEmpty l ++ nonEmpty m :=
  List.filter_append ..

theorem isEol_of_mem {x : UInt8} : isEol x = true ↔ x ∈ EOL_CR_LF := by simp [isEol]

theorem clean_iff {s : Octets} : Clean isEol s ↔ ∀ x ∈ s, x ∉ EOL_CR_LF := by
  simp [Clean, isEol]

@[simp] theorem takeLine_recorder (line : Octets) (r : Recorder) :
    recorder.takeLine line r = ⟨[], r.parsed ++ [r.inputQueue ++ line]⟩ := by
  obtain ⟨q, ls⟩ := r
  cases q <;> simp [Input.takeLine, recorder]

/-- The octet skipped after a CR is an LF, so the lines that follow are the same. -/
theorem drop_afterEol (data : Octets) (eolPos : Nat) :
    lines isEol (data.drop (Input.afterEol data eolPos)) = lines isEol (data.drop (eolPos + 1)) ∧
      rest isEol (data.drop (Input.afterEol data eolPos)) = rest isEol (data.drop (eolPos + 1)) := by
  simp only [Input.afterEol, Nat.add_sub_cancel]
  split
  · rename_i h
    by_cases hlt : eolPos + 1 < data.length
    · have hlf : data[eolPos + 1] = LF := by simpa [hlt] using h.2
      rw [List.drop_eq_getElem_cons hlt, hlf]
      have hsep : isEol LF = true := by decide
      have h1 := lines_close (p := isEol) (data.drop (eolPos + 1 + 1)) clean_nil hsep
      have h2 := rest_cons_sep (p := isEol) [] (data.drop (eolPos + 1 + 1)) hsep
      simp only [List.nil_append, if_true] at h1 h2
      exact ⟨h1.symm, h2.symm⟩
    · rw [List.drop_eq_nil_of_le (show data.length ≤ eolPos + 1 + 1 by omega),
        List.drop_eq_nil_of_le (show data.length ≤ eolPos + 1 by omega)]
      exact ⟨rfl, rfl⟩
  · exact ⟨rfl, rfl⟩

/-- What the loop does from `pos`, for any buffered octets: without a line end
it buffers the chunk, and otherwise the first line takes up the buffer. -/
theorem handleInputFrom_recorder (data : Octets) (pos : Nat) (r : Recorder) :
    let r' := recorder.handleInputFrom data pos r
    (Clean isEol (data.drop pos) ∧ r' = ⟨r.inputQueue ++ data, r.parsed⟩) ∨
    ∃ l sep t, data.drop pos = l ++ sep :: t ∧ Clean isEol l ∧ isEol sep = true ∧
      nonEmpty r'.parsed = nonEmpty r.parsed ++ nonEmpty [r.inputQueue ++ l] ++ lines isEol t ∧
      r'.inputQueue = if rest isEol t = [] then [] else data := by
  fun_induction Input.handleInputFrom recorder data pos r with
  | case1 pos r h => exact .inl ⟨clean_iff.2 (findFirstOf_none h), rfl⟩
  | case2 pos r eolPos h r₁ pos' hge =>
    obtain ⟨sep, -, -, -, hsep, hsplit, hclean⟩ := findFirstOf_some h
    obtain ⟨hl, hr⟩ := drop_afterEol data eolPos
    rw [List.drop_eq_nil_of_le hge, lines_nil] at hl
    rw [List.drop_eq_nil_of_le hge, rest_nil] at hr
    refine .inr ⟨_, sep, _, hsplit, clean_iff.2 hclean, isEol_of_mem.2 hsep, ?_, ?_⟩
    · rw [← hl, List.append_nil, ← nonEmpty_append]; simp [r₁]
    · simp [← hr, r₁]
  | case3 pos r eolPos h r₁ pos' hge ih =>
    obtain ⟨sep, -, -, -, hsep, hsplit, hclean⟩ := findFirstOf_some h
    obtain ⟨hl, hr⟩ := drop_afterEol data eolPos
    refine .inr ⟨_, sep, _, hsplit, clean_iff.2 hclean, isEol_of_mem.2 hsep, ?_⟩
    rw [← hl, ← hr]
    have hne : data.drop pos' ≠ [] := by simp; omega
    rcases ih with ⟨hc, e⟩ | ⟨l, sep', t, e, hl', hsep', hp, hq⟩
    · -- the rest of the chunk is an unfinished line
      rw [e, lines_clean hc, rest_clean hc, if_neg hne]
      exact ⟨by simp [r₁], by simp [r₁]⟩
    · rw [e, lines_close t hl' hsep', rest_cons_sep l t hsep', hp]
      refine ⟨?_, hq⟩
      cases l <;> simp [r₁, nonEmpty]

/-! ## Runs of chunks -/

/-- The framing of a whole run: the parsed lines and the buffered octets are
those of the stream, so no parsed string has a line end in it and nothing is
delivered twice or lost. -/
structure Framed (chunks : List Octets) : Prop where
  parsed : nonEmpty (feed chunks).parsed = lines isEol chunks.flatten
  queued : (feed chunks).inputQueue = rest isEol chunks.flatten
  clean : ∀ l ∈ (feed chunks).parsed, Clean isEol l
  conserved : (feed chunks).parsed.flatten ++ (feed chunks).inputQueue = chunks.flatten.filter (fun x => !isEol x)

/-- Where a chunk may stop: anywhere in a line that started before it, or right
after a line end. -/
def Cut (c : Octets) : Prop := Clean isEol c ∨ ∃ x ∈ c.getLast?, isEol x = true

instance (c : Octets) : Decidable (Cut c) := inferInstanceAs (Decidable (_ ∨ _))

theorem flatten_nonEmpty (l : List Octets) : (nonEmpty l).flatten = l.flatten := List.flatten_filter_not_isEmpty

theorem mem_nonEmpty_of_not_clean {l : Octets} {ls : List Octets} (h : ¬ Clean isEol l) :
    l ∈ nonEmpty ls ↔ l ∈ ls := by
  have hne : l ≠ [] := by rintro rfl; exact h clean_nil
  simp [nonEmpty, hne]

theorem feed_concat (chunks : List Octets) (c : Octets) :
    feed (chunks ++ [c]) = recorder.handleInput c (feed chunks) := by
  simp [feed]

/-- The recorder has followed the stream `s` so far. -/
structure Follows (s : Octets) (r : Recorder) : Prop where
  parsed : nonEmpty r.parsed = lines isEol s
  queued : r.inputQueue = rest isEol s

/-- The lines of a chunk are parsed as they are in the stream, wherever the chunk stops. -/
theorem parsed_handleInput {s c : Octets} {r : Recorder} (hr : Follows s r) :
    nonEmpty (recorder.handleInput c r).parsed = lines isEol (s ++ c) := by
  obtain ⟨hparsed, hqueued⟩ := hr
  rcases handleInputFrom_recorder c 0 r with ⟨hclean, e⟩ | ⟨l, sep, t, e, hl, hsep, hp, -⟩
  · rw [List.drop_zero] at hclean
    have hboth : Clean isEol (rest isEol s ++ c) := clean_append.2 ⟨clean_rest s, hclean⟩
    rw [Input.handleInput, e, lines_append, lines_clean hboth, List.append_nil, hparsed]
  · rw [List.drop_zero] at e
    have hrun : Clean isEol (rest isEol s ++ l) := clean_append.2 ⟨clean_rest s, hl⟩
    rw [Input.handleInput, hp, lines_append, e, ← List.append_assoc, lines_close t hrun hsep, hparsed, hqueued,
      List.append_assoc]
    congr 2
    cases rest isEol s ++ l <;> simp [nonEmpty]

/-- A chunk that stops at a line end, or has none, is followed. -/
theorem follows_handleInput {s c : Octets} {r : Recorder} (hr : Follows s r) (hc : Cut c) :
    Follows (s ++ c) (recorder.handleInput c r) := by
  refine ⟨parsed_handleInput hr, ?_⟩
  rcases handleInputFrom_recorder c 0 r with ⟨hclean, e⟩ | ⟨l, sep, t, e, hl, hsep, -, hq⟩
  · rw [List.drop_zero] at hclean
    have hboth : Clean isEol (rest isEol s ++ c) := clean_append.2 ⟨clean_rest s, hclean⟩
    rw [Input.handleInput, e, rest_append, rest_clean hboth, hr.queued]
  · rw [List.drop_zero] at e
    have hnil : rest isEol t = [] := by
      rcases hc with hclean | ⟨x, hx, hxe⟩
      · exact absurd hclean (not_clean.2 ⟨sep, by simp [e], hsep⟩)
      · rw [← rest_cons_sep l t hsep, ← e]
        exact rest_of_getLast hx hxe
    rw [Input.handleInput, hq, if_pos hnil, rest_append, e, ← List.append_assoc, rest_cons_sep _ t hsep, hnil]

/-- A chunk that stops in a line after a line end is buffered whole. -/
theorem queued_of_not_cut {c : Octets} {r : Recorder} (hc : ¬ Cut c) :
    ¬ Clean isEol (recorder.handleInput c r).inputQueue := by
  rcases handleInputFrom_recorder c 0 r with ⟨hclean, -⟩ | ⟨l, sep, t, e, -, hsep, -, hq⟩
  · exact absurd (.inl (by simpa using hclean)) hc
  · rw [List.drop_zero] at e
    have hopen : rest isEol t ≠ [] := by
      intro h
      rw [← rest_cons_sep l t hsep, ← e] at h
      exact hc (.inr ((rest_eq_nil.1 h).resolve_left (by simp [e])))
    rw [Input.handleInput, hq, if_neg hopen]
    exact not_clean.2 ⟨sep, by simp [e], hsep⟩

/-- A line end has been buffered, or parsed as part of a line. -/
def Swallowed (r : Recorder) : Prop := ¬ Clean isEol r.inputQueue ∨ ∃ l ∈ r.parsed, ¬ Clean isEol l

/-- It stays so: the buffer is never read again, only parsed or extended. -/
theorem swallowed_handleInput {c : Octets} {r : Recorder} (hr : Swallowed r) : Swallowed (recorder.handleInput c r) := by
  rcases handleInputFrom_recorder c 0 r with ⟨-, e⟩ | ⟨l, sep, t, -, -, -, hp, -⟩
  · rw [Input.handleInput, e]
    exact hr.imp (fun h hc => h (clean_append.1 hc).1) id
  · right
    rcases hr with h | ⟨l', hmem, h⟩
    · have hbad : ¬ Clean isEol (r.inputQueue ++ l) := fun hc => h (clean_append.1 hc).1
      refine ⟨_, (mem_nonEmpty_of_not_clean hbad).1 ?_, hbad⟩
      rw [Input.handleInput, hp]
      simp [mem_nonEmpty_of_not_clean hbad]
    · refine ⟨l', (mem_nonEmpty_of_not_clean h).1 ?_, h⟩
      rw [Input.handleInput, hp]
      simp [mem_nonEmpty_of_not_clean h, hmem]

/-- The framing follows the stream exactly when each chunk with a line end
stops at one. -/
theorem framed_iff (chunks : List Octets) : Framed chunks ↔ ∀ c ∈ chunks, Cut c := by
  constructor
  · intro hf c hc
    by_contra hbad
    obtain ⟨pre, post, rfl⟩ := List.append_of_mem hc
    have hswallowed : Swallowed (feed (pre ++ c :: post)) := by
      rw [feed, List.foldl_append, List.foldl_cons]
      exact List.foldlRecOn post _ (.inl (queued_of_not_cut hbad)) (fun _ h _ _ => swallowed_handleInput h)
    rcases hswallowed with h | ⟨l, hl, h⟩
    · exact h (hf.queued ▸ clean_rest _)
    · exact h (hf.clean l hl)
  · intro hcut
    have hfollows : Follows chunks.flatten (feed chunks) := by
      induction chunks using List.reverseRecOn with
      | nil => exact ⟨by simp [feed, nonEmpty], by simp [feed]⟩
      | append_singleton cs c ih =>
        rw [feed_concat, List.flatten_append, List.flatten_singleton]
        exact follows_handleInput (ih fun c' h => hcut c' (by simp [h])) (hcut c (by simp))
    obtain ⟨hparsed, hqueued⟩ := hfollows
    refine ⟨hparsed, hqueued, ?_, ?_⟩
    · intro l hl
      by_contra h
      have hmem := (mem_nonEmpty_of_not_clean h).2 hl
      rw [hparsed] at hmem
      exact h (lines_mem hmem).2
    · rw [← flatten_nonEmpty, hparsed, hqueued, lines_flatten]

/-- A finished line and the start of the next in one chunk: the line is parsed
a second time, with the line end in the middle. -/
theorem not_framed_of_unfinished_tail :
    (feed [octets "PING a\r\nPING", octets " b\r\n"]).parsed =
        [octets "PING a", octets "PING a\r\nPING b"] ∧
      ¬ Framed [octets "PING a\r\nPING", octets " b\r\n"] :=
  ⟨by decide +kernel, fun h => absurd (h.clean (octets "PING a\r\nPING b") (by decide +kernel)) (by decide)⟩

/-! ## Lines alone

Where only the parsed lines matter, a chunk may stop anywhere if nothing ends a
line after it. -/

/-- Each chunk may be cut where it is, or is followed by no line end. -/
def Settled : List Octets → Prop
  | [] => True
  | c :: cs => (Cut c ∨ ∀ d ∈ cs, Clean isEol d) ∧ Settled cs

instance decidableSettled : (chunks : List Octets) → Decidable (Settled chunks)
  | [] => inferInstanceAs (Decidable True)
  | c :: cs =>
    have := decidableSettled cs
    inferInstanceAs (Decidable ((Cut c ∨ ∀ d ∈ cs, Clean isEol d) ∧ Settled cs))

/-- Feed chunks to a recorder in any state. -/
def feedFrom (r : Recorder) (chunks : List Octets) : Recorder := chunks.foldl (fun r c => recorder.handleInput c r) r

theorem feedFrom_cons (r : Recorder) (c : Octets) (chunks : List Octets) :
    feedFrom r (c :: chunks) = feedFrom (recorder.handleInput c r) chunks := rfl

theorem clean_flatten {chunks : List Octets} : Clean isEol chunks.flatten ↔ ∀ c ∈ chunks, Clean isEol c := by
  simp only [Clean, List.mem_flatten]
  constructor
  · intro h c hc x hx
    exact h x ⟨c, hc, hx⟩
  · rintro h x ⟨c, hc, hx⟩
    exact h c hc x hx

theorem settled_of_clean {chunks : List Octets} (h : ∀ c ∈ chunks, Clean isEol c) : Settled chunks := by
  induction chunks with
  | nil => trivial
  | cons c cs ih => exact ⟨.inl (.inl (h c (by simp))), ih fun d hd => h d (by simp [hd])⟩

/-- What was parsed stays parsed. -/
theorem prefix_parsed_handleInputFrom (data : Octets) (pos : Nat) (r : Recorder) :
    r.parsed <+: (recorder.handleInputFrom data pos r).parsed := by
  induction pos using Input.loop_induction data generalizing r with
  | buffer pos hfind =>
    rw [Input.handleInputFrom_none hfind]
    exact List.prefix_refl _
  | line pos eolPos hfind ih =>
    have htake : r.parsed <+: (recorder.takeLine (substr data pos (eolPos - pos)) r).parsed := by
      rw [takeLine_recorder]
      exact List.prefix_append _ _
    rw [Input.handleInputFrom_some hfind, Input.resume]
    split_ifs with hend
    · exact htake
    · exact htake.trans (ih (by omega) _)

theorem clean_stop_append {front run : Octets} (hfront : Input.Stop front) (hrun : ∀ x ∈ run, x ∉ EOL_CR_LF) :
    Clean isEol (front ++ run) ↔ front = [] := by
  rw [clean_append]
  constructor
  · rintro ⟨hclean, -⟩
    rcases hfront with hnil | ⟨x, hx, hxe⟩
    · exact hnil
    · exact absurd hxe (clean_iff.1 hclean x (List.mem_of_getLast? hx))
  · rintro rfl
    exact ⟨clean_nil, clean_iff.2 hrun⟩

theorem findFirstOf_of_clean {data : Octets} {pos : Nat} (h : Clean isEol (data.drop pos)) :
    findFirstOf EOL_CR_LF data pos = none := by
  simpa [findFirstOf, List.findIdx?_eq_none_iff] using clean_iff.1 h

/-- Nothing is buffered after a line end. -/
theorem queued_of_line_end {c : Octets} (hc : ∃ x ∈ c.getLast?, isEol x = true) (r : Recorder) :
    (recorder.handleInput c r).inputQueue = [] := by
  obtain ⟨x, hx, hxe⟩ := hc
  rcases handleInputFrom_recorder c 0 r with ⟨hclean, -⟩ | ⟨l, sep, t, e, -, hsep, -, hq⟩
  · have hx' := (List.drop_zero ▸ hclean) x (List.mem_of_getLast? hx)
    simp [hx'] at hxe
  · rw [List.drop_zero] at e
    have hnil : rest isEol t = [] := by
      rw [← rest_cons_sep l t hsep, ← e]
      exact rest_of_getLast hx hxe
    rw [Input.handleInput, hq, if_pos hnil]

/-- Nothing is parsed exactly when no line ends. -/
theorem parsed_eq_iff (data : Octets) (pos : Nat) (r : Recorder) :
    (recorder.handleInputFrom data pos r).parsed = r.parsed ↔ Clean isEol (data.drop pos) := by
  cases hfind : findFirstOf EOL_CR_LF data pos with
  | none =>
    rw [Input.handleInputFrom_none hfind]
    exact iff_of_true rfl (clean_iff.2 (findFirstOf_none hfind))
  | some eolPos =>
    obtain ⟨sep, -, -, -, hsep, hsplit, -⟩ := findFirstOf_some hfind
    refine iff_of_false ?_ (not_clean.2 ⟨sep, by simp [hsplit], isEol_of_mem.2 hsep⟩)
    intro hsame
    -- the first line is parsed, and stays parsed
    rw [Input.handleInputFrom_some hfind, Input.resume] at hsame
    have hlength : (recorder.takeLine (substr data pos (eolPos - pos)) r).parsed.length ≤ r.parsed.length := by
      split_ifs at hsame
      · exact Nat.le_of_eq (congrArg List.length hsame)
      · exact hsame ▸ (prefix_parsed_handleInputFrom data _ _).length_le
    rw [takeLine_recorder, List.length_append, List.length_singleton] at hlength
    omega

theorem prefix_parsed_feedFrom (chunks : List Octets) (r : Recorder) : r.parsed <+: (feedFrom r chunks).parsed := by
  induction chunks generalizing r with
  | nil => exact List.prefix_refl _
  | cons c cs ih => exact (prefix_parsed_handleInputFrom c 0 r).trans (ih _)

/-- Chunks without a line end are only buffered. -/
theorem feedFrom_clean {chunks : List Octets} (h : ∀ c ∈ chunks, Clean isEol c) (r : Recorder) :
    (feedFrom r chunks).parsed = r.parsed := by
  induction chunks generalizing r with
  | nil => rfl
  | cons c cs ih =>
    rw [feedFrom_cons, ih (fun d hd => h d (by simp [hd]))]
    exact (parsed_eq_iff c 0 r).2 (by simpa using h c (by simp))

/-- A line end that is buffered is parsed as part of the next line. -/
theorem swallowed_parsed {r : Recorder} (hr : ¬ Clean isEol r.inputQueue) {chunks : List Octets}
    (h : ¬ ∀ c ∈ chunks, Clean isEol c) : ∃ l ∈ (feedFrom r chunks).parsed, ¬ Clean isEol l := by
  induction chunks generalizing r with
  | nil => simp at h
  | cons c cs ih =>
    rw [feedFrom_cons]
    rcases handleInputFrom_recorder c 0 r with ⟨hclean, e⟩ | ⟨l, sep, t, -, -, -, hp, -⟩
    · rw [List.drop_zero] at hclean
      refine ih ?_ fun hcs => h ?_
      · rw [Input.handleInput, e]
        exact fun hc => hr (clean_append.1 hc).1
      · intro d hd
        rcases List.mem_cons.1 hd with rfl | hd
        · exact hclean
        · exact hcs d hd
    · have hbad : ¬ Clean isEol (r.inputQueue ++ l) := fun hc => hr (clean_append.1 hc).1
      have hmem : r.inputQueue ++ l ∈ (recorder.handleInput c r).parsed := by
        rw [← mem_nonEmpty_of_not_clean hbad, Input.handleInput, hp]
        simp [mem_nonEmpty_of_not_clean hbad]
      exact ⟨_, (prefix_parsed_feedFrom cs _).subset hmem, hbad⟩

/-- Settled chunks are parsed into the lines of the stream. -/
theorem parsed_of_settled {s : Octets} {r : Recorder} (hr : Follows s r) {chunks : List Octets} (h : Settled chunks) :
    nonEmpty (feedFrom r chunks).parsed = lines isEol (s ++ chunks.flatten) := by
  induction chunks generalizing s r with
  | nil => simpa [feedFrom] using hr.parsed
  | cons c cs ih =>
    obtain ⟨hcut | hclean, hsettled⟩ := h
    · rw [feedFrom_cons, ih (follows_handleInput hr hcut) hsettled, List.flatten_cons, List.append_assoc]
    · rw [feedFrom_cons, feedFrom_clean hclean, parsed_handleInput hr, List.flatten_cons, ← List.append_assoc,
        lines_append (s ++ c), lines_clean (clean_append.2 ⟨clean_rest _, clean_flatten.2 hclean⟩), List.append_nil]

/-- And of others, some line end is parsed as part of a line. -/
theorem parsed_of_not_settled (r : Recorder) {chunks : List Octets} (h : ¬ Settled chunks) :
    ∃ l ∈ (feedFrom r chunks).parsed, ¬ Clean isEol l := by
  induction chunks generalizing r with
  | nil => exact absurd trivial h
  | cons c cs ih =>
    by_cases hcs : Settled cs
    · have hc : ¬ (Cut c ∨ ∀ d ∈ cs, Clean isEol d) := fun hc => h ⟨hc, hcs⟩
      rw [not_or] at hc
      exact swallowed_parsed (queued_of_not_cut hc.1) hc.2
    · exact ih _ hcs

/-- A recorder that starts in the middle of a line, after `front`, parses the
lines of the stream exactly when it misses nothing of the first. -/
theorem parsed_iff_settled {front : Octets} (hfront : Clean isEol front) (chunks : List Octets) :
    nonEmpty (feedFrom ⟨[], []⟩ chunks).parsed = lines isEol (front ++ chunks.flatten) ↔
      Settled chunks ∧ (front = [] ∨ ∀ c ∈ chunks, Clean isEol c) := by
  have hfollows : Follows [] ⟨[], []⟩ := ⟨by simp [nonEmpty], by simp⟩
  by_cases hall : ∀ c ∈ chunks, Clean isEol c
  · refine iff_of_true ?_ ⟨settled_of_clean hall, .inr hall⟩
    rw [feedFrom_clean hall, lines_clean (clean_append.2 ⟨hfront, clean_flatten.2 hall⟩)]
    rfl
  · obtain ⟨l, sep, t, e, hsep, hl⟩ := exists_first_sep (mt clean_flatten.1 hall)
    constructor
    · intro hlines
      have hsettled : Settled chunks := by
        by_contra hbad
        obtain ⟨l, hmem, hunclean⟩ := parsed_of_not_settled ⟨[], []⟩ hbad
        rw [← mem_nonEmpty_of_not_clean hunclean, hlines] at hmem
        exact hunclean (lines_mem hmem).2
      refine ⟨hsettled, .inl ?_⟩
      -- the first line is missed if any of it was before the chunks
      rw [parsed_of_settled hfollows hsettled, List.nil_append, e, ← List.append_assoc, lines_close t hl hsep,
        lines_close t (clean_append.2 ⟨hfront, hl⟩) hsep] at hlines
      have hfirst := List.append_cancel_right hlines
      by_contra hne
      have hmore : front ++ l ≠ [] := by simp [hne]
      rw [if_neg hmore] at hfirst
      split_ifs at hfirst with hnil
      exact hne (List.self_eq_append_left.1 (List.singleton_inj.1 hfirst))
    · rintro ⟨hsettled, rfl | hclean⟩
      · rw [parsed_of_settled hfollows hsettled]
      · exact absurd hclean hall

end KineIRCd.Framing
