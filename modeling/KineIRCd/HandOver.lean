import KineIRCd.Succession
/-!
# The hand-over of the input

When a registration completes, the registrar hands over in the middle of a
chunk. It is deleted, but it is its loop that goes on with the chunk. So the new
object gets the lines that follow exactly when the completing line arrived in
one piece and was the last of its chunk.
-/
namespace KineIRCd.Daemon

open Clbp Framing Lines

variable (site : Irc2User.Site)

/-- The state after the first octets of a chunk that the object at `a` handles. -/
def upTo (w : World) (c a : Nat) (chunk octets : Octets) : World :=
  (input site a (w.saidGoodbye c)).handleInput octets (receive c chunk w)

/-- Of the chunk `front ++ rest`, the registrar at `a` needs no less than
`front` to hand over to the object at `b`. -/
structure HandsOver (w : World) (c a b : Nat) (front rest : Octets) : Prop where
  connected : w.isConnected c = true
  registrar : w.HasProtocol c a
  before : ∀ n < front.length, (upTo site w c a (front ++ rest) (front.take n)).HasProtocol c a
  after : (upTo site w c a (front ++ rest) front).HasProtocol c b
  ne : b ≠ a

instance (w : World) (c a b : Nat) (front rest : Octets) : Decidable (HandsOver site w c a b front rest) :=
  decidable_of_iff (w.isConnected c = true ∧ w.HasProtocol c a ∧
      (∀ n < front.length, (upTo site w c a (front ++ rest) (front.take n)).HasProtocol c a) ∧
      (upTo site w c a (front ++ rest) front).HasProtocol c b ∧ b ≠ a) (by
    constructor
    · rintro ⟨hconnected, hregistrar, hbefore, hafter, hne⟩
      exact ⟨hconnected, hregistrar, hbefore, hafter, hne⟩
    · intro h
      exact ⟨h.connected, h.registrar, h.before, h.after, h.ne⟩)

/-- The hand-over preserves the input: the new object starts with nothing of
the lines so far, parses the lines that follow, and is the only one to do so. -/
structure Preserved (w : World) (c a b : Nat) (front rest : Octets) (later : List Action) : Prop where
  queue : (upTo site w c a (front ++ rest) front).queue b = []
  parsed : nonEmpty ((later.foldl (act site) (handleInput site c (some (front ++ rest)) w).2).parsedBy b) =
    lines isEol (rest ++ (received site c (handleInput site c (some (front ++ rest)) w).2 later).flatten)
  registrar : (later.foldl (act site) (handleInput site c (some (front ++ rest)) w).2).parsedBy a =
    (upTo site w c a (front ++ rest) front).parsedBy a

/-- What follows the completing line in its chunk. The LF of a pair belongs to the line end. -/
def remainder (front rest : Octets) : Octets :=
  if front.getLast? = some CR ∧ rest.head? = some LF then rest.tail else rest

/-- The completing line is in one chunk, its chunk ends no other line after it,
and the chunks that follow are cut where they may be. -/
structure Separate (queue front rest : Octets) (chunks : List Octets) : Prop where
  whole : queue = [] ∨ ¬ Clean isEol front.dropLast
  last : Clean isEol (remainder front rest)
  first : remainder front rest = [] ∨ ∀ chunk ∈ chunks, Clean isEol chunk
  settled : Settled chunks

/-! ## The chunk of the completing line -/

/-- The loop goes on at the remainder. -/
theorem drop_resumeAt (front rest : Octets) : (front ++ rest).drop (Input.resumeAt front rest) = remainder front rest := by
  rw [Input.resumeAt, remainder, List.drop_append]
  split_ifs
  · simp
  · simp

theorem lines_remainder (front rest more : Octets) :
    lines isEol (rest ++ more) = lines isEol (remainder front rest ++ more) := by
  unfold remainder
  split_ifs with hpair
  · obtain ⟨tail, rfl⟩ : ∃ tail, rest = LF :: tail := by
      cases rest with
      | nil => simp at hpair
      | cons x xs => exact ⟨xs, by rw [Option.some_inj.1 hpair.2]⟩
    have hclose := lines_close (p := isEol) (tail ++ more) clean_nil (show isEol LF = true by decide)
    simpa using hclose
  · rfl

section
variable {site} {c a b : Nat} {w : World}

namespace HandsOver
variable {front rest : Octets} (h : HandsOver site w c a b front rest)
include h

theorem handling (hw : w.WellFormed) : Handling c a (receive c (front ++ rest) w) :=
  (handling_of_hasProtocol hw h.registrar).frame (frame_receive c _ w)

/-- It reads like a recorder that starts with what is buffered. -/
theorem reads (hw : w.WellFormed) (octets : Octets) : Reads c a (w.parsedBy a)
    (upTo site w c a (front ++ rest) octets) (recorder.handleInput octets ⟨w.queue a, []⟩) := by
  have hreceive := quiet_receive c (front ++ rest) w
  have hstart : Reads c a (w.parsedBy a) (receive c (front ++ rest) w) ⟨w.queue a, []⟩ :=
    ⟨h.handling hw, hreceive.queue a, by rw [hreceive.parsedBy, List.append_nil]⟩
  exact hstart.handleInputFrom site (w.saidGoodbye c) octets 0

theorem front_ne_nil : front ≠ [] := by
  rintro rfl
  have hafter := h.after
  rw [upTo, Input.handleInput, Input.handleInputFrom_none rfl] at hafter
  have hreceive : (receive c ([] ++ rest) w).HasProtocol c b := hafter
  exact h.ne (World.hasProtocol_unique ((quiet_receive c _ w).hasProtocol_iff.1 hreceive) h.registrar)

/-- It takes a line end. -/
theorem ends : ∃ x ∈ front.getLast?, x ∈ EOL_CR_LF := by
  obtain ⟨init, x, e⟩ := (List.eq_nil_or_concat front).resolve_left h.front_ne_nil
  refine ⟨x, by simp [e], ?_⟩
  by_contra hx
  have hbefore := h.before init.length (by simp [e])
  rw [e, List.concat_eq_append, List.take_left, ← List.concat_eq_append, ← e] at hbefore
  have hafter := h.after
  unfold upTo at hbefore hafter
  -- any other octet is only buffered, so the registrar would be in its place
  obtain ⟨s', q, q', hlong, hshort⟩ := Input.handleInput_concat (I := input site a (w.saidGoodbye c))
    (s := receive c (front ++ rest) w) init hx
  rw [← List.concat_eq_append, ← e] at hlong
  rw [hlong] at hafter
  have hsame : World.HasProtocol s' c a := by
    rcases hshort with hshort | hshort
    · rwa [hshort] at hbefore
    · rwa [hshort] at hbefore
  exact h.ne (World.hasProtocol_unique hafter hsame)

/-- At the stop before the completing line the registrar is in its place. -/
theorem atStop_hasProtocol (stop : Octets) (hstop : stop <+: front) (hne : stop ≠ front) :
    ((input site a (w.saidGoodbye c)).atStop stop (receive c (front ++ rest) w)).HasProtocol c a := by
  unfold Input.atStop
  split_ifs
  · exact (quiet_receive c _ w).hasProtocol_iff.2 h.registrar
  · have hlt : stop.length < front.length := by
      refine Nat.lt_of_le_of_ne hstop.length_le fun e => hne (hstop.eq_of_length e)
    have hbefore := h.before stop.length hlt
    rwa [← List.prefix_iff_eq_take.1 hstop] at hbefore

/-- What the registrar has there. -/
theorem atStop_spec (hw : w.WellFormed) (hunheard : Unheard w) {stop : Octets} (hstop : Input.Stop stop) :
    Handling c a ((input site a (w.saidGoodbye c)).atStop stop (receive c (front ++ rest) w)) ∧
      Unheard ((input site a (w.saidGoodbye c)).atStop stop (receive c (front ++ rest) w)) ∧
      ((input site a (w.saidGoodbye c)).atStop stop (receive c (front ++ rest) w)).queue a =
        if stop = [] then w.queue a else [] := by
  have hreceive := quiet_receive c (front ++ rest) w
  unfold Input.atStop
  split_ifs with hnil
  · exact ⟨h.handling hw, hunheard.quiet hreceive, hreceive.queue a⟩
  · have hchunk := h.reads hw stop
    have hkept := (keeps_unheard site c a (w.saidGoodbye c)).chunk stop ⟨h.handling hw, fun _ => hunheard.quiet hreceive⟩
    obtain ⟨x, hx, hxe⟩ := hstop.resolve_left hnil
    -- an earlier line of the chunk took up the queue
    have hempty := hchunk.queue.trans (queued_of_line_end ⟨x, hx, isEol_of_mem.2 hxe⟩ _)
    exact ⟨hchunk.handling, hkept.2 fun _ _ => rfl, hempty⟩

/-- The successor starts with what was buffered when the completing line began. -/
theorem succeeds (hw : w.WellFormed) (hunheard : Unheard w) :
    Succeeds c a b (if Clean isEol front.dropLast then w.queue a else []) (upTo site w c a (front ++ rest) front) := by
  obtain ⟨x, hx, hsep⟩ := h.ends
  obtain ⟨init, hfront⟩ := List.getLast?_eq_some_iff.1 hx
  obtain ⟨stop, run, rfl, hstop, hrun⟩ := Input.exists_stop init
  have hplace := h.atStop_hasProtocol stop (by rw [hfront, List.append_assoc]; exact List.prefix_append _ _)
    (by rw [hfront]; simp)
  obtain ⟨hhandling, hun, hqueue⟩ := h.atStop_spec hw hunheard hstop
  have hclean : Clean isEol front.dropLast ↔ stop = [] := by
    rw [hfront, List.dropLast_concat, clean_stop_append hstop hrun]
  have hafter := h.after
  unfold upTo at hafter ⊢
  simp only [hclean, ← hqueue]
  rcases Input.handleInput_line (I := input site a (w.saidGoodbye c)) (s := receive c (front ++ rest) w)
    hstop hrun hsep with e | e
  · -- with the LF of a pair alone, nothing happens
    rw [← List.append_assoc, ← hfront] at e
    rw [e] at hafter
    exact absurd (World.hasProtocol_unique hafter hplace) h.ne
  · rw [← List.append_assoc, ← hfront] at e
    rw [e] at hafter ⊢
    rcases takeLine_place site hhandling hun hplace (w.saidGoodbye c) run with hsame | ⟨b', hb'⟩
    · exact absurd (World.hasProtocol_unique hafter hsame) h.ne
    · rwa [World.hasProtocol_unique hafter hb'.hasProtocol]

/-- The registrar goes on where the loop does. -/
theorem upTo_append : upTo site w c a (front ++ rest) (front ++ rest) =
    (input site a (w.saidGoodbye c)).resume (front ++ rest) (Input.resumeAt front rest) (upTo site w c a (front ++ rest) front) :=
  Input.handleInputFrom_append rest h.ends (List.length_pos_iff.2 h.front_ne_nil)

/-- Whoever is in the registrar's place stays untouched by a remainder without a line end. -/
theorem untouched_remainder (hclean : Clean isEol (remainder front rest)) :
    (upTo site w c a (front ++ rest) front).Untouched b (upTo site w c a (front ++ rest) (front ++ rest)) := by
  rw [h.upTo_append, Input.resume]
  split_ifs
  · exact .refl b _
  · rw [Input.handleInputFrom_none (findFirstOf_of_clean (by rwa [drop_resumeAt]))]
    exact .setInputQueue _ h.ne _

/-- The registrar parses nothing of the remainder exactly when no line ends there. -/
theorem parsedBy_remainder (hw : w.WellFormed) : (upTo site w c a (front ++ rest) (front ++ rest)).parsedBy a =
    (upTo site w c a (front ++ rest) front).parsedBy a ↔ Clean isEol (remainder front rest) := by
  have hreads := h.reads hw front
  have hstart : Reads c a ((upTo site w c a (front ++ rest) front).parsedBy a) (upTo site w c a (front ++ rest) front)
      ⟨(upTo site w c a (front ++ rest) front).queue a, []⟩ := ⟨hreads.handling, rfl, (List.append_nil _).symm⟩
  rw [h.upTo_append, ← drop_resumeAt, Input.resume]
  split_ifs with hend
  · rw [List.drop_eq_nil_of_le hend]
    exact iff_of_true rfl clean_nil
  · have hrest := (hstart.handleInputFrom site (w.saidGoodbye c) (front ++ rest) (Input.resumeAt front rest)).parsedBy
    rw [hrest, ← parsed_eq_iff _ _ ⟨(upTo site w c a (front ++ rest) front).queue a, []⟩]
    exact List.append_right_eq_self

/-- After the chunk no connection refers to the registrar. -/
theorem detached (hw : w.WellFormed) (c' : Nat) : ¬ (upTo site w c a (front ++ rest) (front ++ rest)).HasProtocol c' a := by
  have hreplaced : ¬ (upTo site w c a (front ++ rest) front).HasProtocol c a :=
    fun ha => h.ne (World.hasProtocol_unique h.after ha)
  have hchunk : During c a (fun _ => true) (fun w => ¬ w.HasProtocol c a) (upTo site w c a (front ++ rest) (front ++ rest)) := by
    have hstart : During c a (fun _ => true) (fun w => ¬ w.HasProtocol c a) (upTo site w c a (front ++ rest) front) :=
      ⟨(h.reads hw front).handling, fun _ => hreplaced⟩
    rw [h.upTo_append, Input.resume]
    split_ifs
    · exact hstart
    · exact (keeps_replaced site c a (w.saidGoodbye c)).chunkFrom _ _ hstart
  intro ha
  have howner := hchunk.1.wellFormed.owner c' a ha
  rw [hchunk.1.owner, Option.some_inj] at howner
  subst howner
  exact hchunk.2 (fun _ _ => rfl) ha

/-- The step is the chunk. -/
theorem handleInput_eq : (handleInput site c (some (front ++ rest)) w).2 =
    wake c (upTo site w c a (front ++ rest) (front ++ rest)) := by
  obtain ⟨conn, hconn, hopen⟩ := isConnected_iff.1 h.connected
  obtain rfl : conn.protocol = a := World.hasProtocol_unique ⟨conn, hconn, rfl⟩ h.registrar
  have hne : front ++ rest ≠ [] := by simp [h.front_ne_nil]
  rw [handleInput_some site hconn hopen, if_neg hne, upTo]

/-- The registrar reads no more once the chunk is through. -/
theorem parsedBy_registrar (hw : w.WellFormed) (later : List Action) :
    (later.foldl (act site) (handleInput site c (some (front ++ rest)) w).2).parsedBy a =
      (upTo site w c a (front ++ rest) (front ++ rest)).parsedBy a := by
  have hwake := quiet_wake c (upTo site w c a (front ++ rest) (front ++ rest))
  have hreads := h.reads hw (front ++ rest)
  have hw' := hreads.handling.wellFormed.frame (frame_wake c _)
  have hdetached : ∀ c', ¬ (wake c (upTo site w c a (front ++ rest) (front ++ rest))).HasProtocol c' a := by
    intro c'
    rw [hwake.hasProtocol_iff]
    exact h.detached hw c'
  rw [h.handleInput_eq, ← hwake.parsedBy]
  exact (untouched_of_detached site later hw' (hwake.allocated ▸ hreads.handling.lt_allocated) hdetached).parsedBy

/-- Its successor reads what is received, if the remainder has no line end. -/
theorem parsedBy_successor (hw : w.WellFormed) (hunheard : Unheard w) (hclean : Clean isEol (remainder front rest))
    (later : List Action) : (later.foldl (act site) (handleInput site c (some (front ++ rest)) w).2).parsedBy b =
      (feedFrom ⟨(upTo site w c a (front ++ rest) front).queue b, []⟩
        (received site c (handleInput site c (some (front ++ rest)) w).2 later)).parsed := by
  have hsucceeds := h.succeeds hw hunheard
  have hwake := quiet_wake c (upTo site w c a (front ++ rest) (front ++ rest))
  have hend := (hsucceeds.untouched (h.untouched_remainder hclean)).untouched (.of_quiet hwake)
  have hhandling := (h.reads hw (front ++ rest)).handling.frame (frame_wake c _)
  rw [h.handleInput_eq, hsucceeds.queue]
  have hstart : Serves c b (wake c (upTo site w c a (front ++ rest) (front ++ rest)))
      ⟨if Clean isEol front.dropLast then w.queue a else [], []⟩ :=
    ⟨hhandling.wellFormed, hhandling.wellFormed.connection_lt c hhandling.live,
      hhandling.wellFormed.hasProtocol_lt hend.hasProtocol, hend.parsedBy, .inl ⟨hend.hasProtocol, hend.nickname, hend.queue⟩⟩
  exact (hstart.run site later).parsedBy

end HandsOver

end

/-- Whatever came before and comes after: a hand-over preserves the input
exactly when the completing line arrived in one chunk, no other line ends in
that chunk after it or starts there to end in a later one, and the later chunks
are cut where they may be. -/
theorem handOver_preserves_iff {c a b : Nat} {front rest : Octets} (before later : List Action)
    (h : HandsOver site (reach site before) c a b front rest) :
    Preserved site (reach site before) c a b front rest later ↔ Separate ((reach site before).queue a) front rest
      (received site c (handleInput site c (some (front ++ rest)) (reach site before)).2 later) := by
  have hw := wellFormed_reach site before
  have hunheard := unheard_reach site before
  generalize reach site before = w at h hw hunheard ⊢
  have hregistrar := h.parsedBy_registrar hw later
  have hqueue : (upTo site w c a (front ++ rest) front).queue b = [] ↔ w.queue a = [] ∨ ¬ Clean isEol front.dropLast := by
    rw [(h.succeeds hw hunheard).queue]
    split_ifs with hclean
    · simp [hclean]
    · simp [hclean]
  constructor
  · intro hp
    have hlast := (h.parsedBy_remainder hw).1 (hregistrar.symm.trans hp.registrar)
    have hparsed := hp.parsed
    rw [h.parsedBy_successor hw hunheard hlast, hp.queue, lines_remainder front] at hparsed
    obtain ⟨hsettled, hfirst⟩ := (parsed_iff_settled hlast _).1 hparsed
    exact ⟨hqueue.1 hp.queue, hlast, hfirst, hsettled⟩
  · intro hs
    have hnil := hqueue.2 hs.whole
    refine ⟨hnil, ?_, hregistrar.trans ((h.parsedBy_remainder hw).2 hs.last)⟩
    rw [h.parsedBy_successor hw hunheard hs.last, hnil, lines_remainder front]
    exact (parsed_iff_settled hs.last _).2 ⟨hs.settled, hs.first⟩

/-- A client that has yet to send USER. -/
def registering : List Action := [accepts 5, types 0 "NICK pickle\r\n", types 0 "PONG Z0\r\n"]

/-- USER comes in one chunk, and then two more lines in three. -/
theorem handOver_preserves_whole_line :
    HandsOver sampleSite (reach sampleSite registering) 0 1 2 (octets "USER user 0 host :name\r") [LF] ∧
      Preserved sampleSite (reach sampleSite registering) 0 1 2 (octets "USER user 0 host :name\r") [LF]
        [types 0 "PING a\r\n", types 0 "JO", types 0 "IN\r\n"] := by
  have h : HandsOver sampleSite (reach sampleSite registering) 0 1 2 (octets "USER user 0 host :name\r") [LF] := by
    decide +kernel
  refine ⟨h, (handOver_preserves_iff sampleSite registering _ h).2 ⟨.inl ?_, ?_, .inl rfl, ?_⟩⟩
  · decide +kernel
  · decide
  · decide +kernel

/-- The start of USER, in a chunk of its own, becomes the start of the new
object's first line; and a line in the same chunk after USER is the registrar's. -/
theorem not_preserved_of_split_line :
    (HandsOver sampleSite (reach sampleSite (registering ++ [types 0 "US"])) 0 1 2 (octets "ER user 0 host :name\r") [LF] ∧
        (reach sampleSite (registering ++ [types 0 "US", types 0 "ER user 0 host :name\r\n", types 0 "PING a\r\n"])).parsedBy 2 =
          [octets "USPING a"] ∧
        ¬ Preserved sampleSite (reach sampleSite (registering ++ [types 0 "US"])) 0 1 2 (octets "ER user 0 host :name\r") [LF]
          [types 0 "PING a\r\n"]) ∧
      HandsOver sampleSite (reach sampleSite registering) 0 1 2 (octets "USER user 0 host :name\r") (octets "\nPING a\r\n") ∧
        (reach sampleSite (registering ++ [types 0 "USER user 0 host :name\r\nPING a\r\n"])).parsedBy 1 =
          [octets "NICK pickle", octets "PONG Z0", octets "USER user 0 host :name", octets "PING a"] ∧
        ¬ Preserved sampleSite (reach sampleSite registering) 0 1 2 (octets "USER user 0 host :name\r")
          (octets "\nPING a\r\n") [] := by
  have hqueue : (upTo sampleSite (reach sampleSite (registering ++ [types 0 "US"])) 0 1
      (octets "ER user 0 host :name\r" ++ [LF]) (octets "ER user 0 host :name\r")).queue 2 = octets "US" := by
    decide +kernel
  have hline : (handleInput sampleSite 0 (some (octets "USER user 0 host :name\r" ++ octets "\nPING a\r\n"))
      (reach sampleSite registering)).2.parsedBy 1 ≠ (upTo sampleSite (reach sampleSite registering) 0 1
        (octets "USER user 0 host :name\r" ++ octets "\nPING a\r\n") (octets "USER user 0 host :name\r")).parsedBy 1 := by
    decide +kernel
  refine ⟨⟨?_, ?_, fun hp => absurd (hqueue.symm.trans hp.queue) (by decide)⟩, ?_, ?_, fun hp => hline hp.registrar⟩
  all_goals decide +kernel

end KineIRCd.Daemon
