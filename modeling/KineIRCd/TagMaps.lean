import KineIRCd.LanguageStore
/-!
# Tag maps

Modules register arrays of tag names and expect the engine to keep their IDs up
to date. What `registerMap` puts in the set is the address of its own
parameter, which says nothing about the array, and `processMaps` then takes
that address for an array. The set of arrays that are really registered is
kept beside the engine, to compare.
-/
namespace KineIRCd.Languages

open LangTags Numbering Runs

/-- A call of the engine by its users. Calls have their parameters in some frame. -/
inductive Call (δ : Type) where
  | registerMap (frame map : Nat)
  | deregisterMap (frame map : Nat)
  | loadFile (file : FileLoad δ)

/-- The engine, and the arrays that were registered and not deregistered since. -/
structure Registrants where
  languages : Languages
  registered : Finset Nat

variable {δ : Type} {outside : Outside δ} {file : FileLoad δ} {S : Finset Octets}

namespace Registrants

def start (memory : Address → List TagMapEntry) : Registrants := ⟨new memory, ∅⟩

/-- The state after a call. -/
def step (outside : Outside δ) (s : Registrants) : Call δ → Registrants
  | .registerMap frame map => ⟨s.languages.registerMap frame map, insert map s.registered⟩
  | .deregisterMap frame map => ⟨s.languages.deregisterMap frame map, s.registered.erase map⟩
  | .loadFile file => ⟨load outside s.languages file, s.registered⟩

/-- Files load. -/
def Succeeds (outside : Outside δ) (s : Registrants) : Call δ → Prop
  | .loadFile file => (loadFile outside file s.languages).1 = .loaded
  | _ => True

/-- Every entry of a registered map has the ID of its tag. -/
def UpToDate (s : Registrants) : Prop :=
  ∀ map ∈ s.registered, ∀ entry ∈ s.languages.memory (.array map), entry.tagID = s.languages.getTagID entry.tagName

/-- The addresses that `processMaps` reads entries at, and writes them back. -/
def processed (s : Registrants) : Call δ → List Address
  | .loadFile _ => s.languages.tagMaps
  | _ => []

/-- `processMaps` keeps to the registered maps, and a map that is not registered is not written. -/
def Confined (outside : Outside δ) (s : Registrants) (call : Call δ) : Prop :=
  (∀ address ∈ s.processed call, ∃ map ∈ s.registered, address = .array map) ∧
    ∀ map, map ∉ (step outside s call).registered →
      (step outside s call).languages.memory (.array map) = s.languages.memory (.array map)

/-- A load finds no address in the set, and every tag of a registered map that the file
defines is in the dictionary already. -/
def Harmless (outside : Outside δ) (s : Registrants) : Call δ → Prop
  | .loadFile file =>
    s.languages.tagMaps = [] ∧
      ∀ map ∈ s.registered, ∀ entry ∈ s.languages.memory (.array map),
        toUpper entry.tagName ∈ file.tags outside → toUpper entry.tagName ∈ s.languages.tagDictionary
  | _ => True

end Registrants

/-! ## Writing maps -/

variable {s : Languages} {map : Address}

theorem processTagMap_memory_self :
    (s.processTagMap map).memory map = (s.memory map).map fun entry => { entry with tagID := s.getTagID entry.tagName } :=
  Function.update_self ..

theorem processTagMap_memory_ne {address : Address} (h : address ≠ map) :
    (s.processTagMap map).memory address = s.memory address :=
  Function.update_of_ne h ..

/-- Only what is in the set is written. -/
theorem processMaps_memory {address : Address} (h : address ∉ s.tagMaps) : s.processMaps.memory address = s.memory address := by
  have main : ∀ (maps : List Address) (s : Languages), address ∉ maps →
      (maps.foldl processTagMap s).memory address = s.memory address := by
    intro maps
    induction maps with
    | nil => exact fun _ _ => rfl
    | cons map maps ih =>
      intro s hmem
      rw [List.foldl_cons, ih _ (List.not_mem_of_not_mem_cons hmem)]
      exact processTagMap_memory_ne (List.ne_of_not_mem_cons hmem)
  exact main s.tagMaps s h

theorem finish_memory {address : Address} (h : address ∉ s.tagMaps) (d : LanguageData) (makeDefault : Bool) :
    (s.finish d makeDefault).memory address = s.memory address := by
  unfold finish
  rw [processMaps_memory (by simpa using h)]
  simp

/-- A load that succeeds. -/
theorem load_memory {address : Address} (h : address ∉ s.tagMaps) (hout : file.outcome outside = .loaded) :
    (load outside s file).memory address = s.memory address := by
  rw [load_of_loaded hout, finish_memory (by simpa using h), addTags_memory]

theorem load_tagMaps (hout : file.outcome outside = .loaded) : (load outside s file).tagMaps = s.tagMaps := by
  rw [load_of_loaded hout]
  simp [finish]

/-- The ID of a tag that is not in the dictionary changes exactly if the file defines the tag. -/
theorem getTagID_load_iff (hn : Numbers S s) (htags : ∀ tag ∈ file.tags outside, tag ∈ S) (tagName : Octets) :
    s.getTagID tagName = (load outside s file).getTagID tagName ↔
      (toUpper tagName ∈ file.tags outside → toUpper tagName ∈ s.tagDictionary) := by
  unfold getTagID
  rw [(load_dictionary outside s file).1]
  cases hold : s.tagDictionary.lookup (toUpper tagName) with
  | some tagID =>
    rw [addTags_extends _ tagID hold]
    refine iff_of_true rfl fun _ => ?_
    exact AList.lookup_isSome.1 (Option.isSome_iff_exists.2 ⟨tagID, hold⟩)
  | none =>
    have hnot := AList.lookup_eq_none.1 hold
    cases hnew : (s.addTags (file.tags outside)).tagDictionary.lookup (toUpper tagName) with
    | none =>
      refine iff_of_true rfl fun htag => ?_
      exact absurd (mem_addTags.2 (.inr htag)) (AList.lookup_eq_none.1 hnew)
    | some tagID =>
      have hmem : toUpper tagName ∈ (s.addTags (file.tags outside)).tagDictionary :=
        AList.lookup_isSome.1 (Option.isSome_iff_exists.2 ⟨tagID, hnew⟩)
      have htag := (mem_addTags.1 hmem).resolve_left hnot
      have hpos := ((hn.addTags htags).ids.bounds _ tagID hnew).1
      refine iff_of_false ?_ fun hknown => hnot (hknown htag)
      intro hzero
      have hzero' : tagID = 0 := hzero.symm
      rw [hzero'] at hpos
      exact absurd hpos (by decide)

/-! ## One call -/

namespace Registrants

/-- Every address in the set is that of a parameter. -/
def Frames (s : Registrants) : Prop := ∀ address ∈ s.languages.tagMaps, ∃ frame, address = .frame frame

variable {s : Registrants} {call : Call δ}

theorem Frames.not_mem (h : Frames s) (map : Nat) : .array map ∉ s.languages.tagMaps := by
  intro hmem
  obtain ⟨frame, hframe⟩ := h _ hmem
  simp at hframe

theorem Frames.step (h : Frames s) (hok : Succeeds outside s call) : Frames (step outside s call) := by
  intro address haddress
  cases call with
  | registerMap frame map =>
    rcases List.mem_insert_iff.1 haddress with rfl | hold
    · exact ⟨frame, rfl⟩
    · exact h address hold
  | deregisterMap frame map => exact h address (List.mem_of_mem_erase haddress)
  | loadFile file =>
    have hout : file.outcome outside = .loaded := loadFile_outcome ▸ hok
    change address ∈ (load outside s.languages file).tagMaps at haddress
    rw [load_tagMaps hout] at haddress
    exact h address haddress

/-- The tags of a call. -/
def tags (outside : Outside δ) : Call δ → List Octets
  | .loadFile file => file.tags outside
  | _ => []

theorem numbers_step (h : Numbers S s.languages) (htags : ∀ tag ∈ tags outside call, tag ∈ S) :
    Numbers S (step outside s call).languages := by
  cases call with
  | registerMap frame map => exact ⟨h.fits, h.mem, h.ids⟩
  | deregisterMap frame map => exact ⟨h.fits, h.mem, h.ids⟩
  | loadFile file => exact h.load htags

theorem registerMap_keeps (hi : UpToDate s) (frame map : Nat) :
    Confined outside s (.registerMap frame map) ∧ UpToDate (step outside s (.registerMap frame map)) := by
  refine ⟨⟨by simp [processed], ?_⟩, ?_⟩
  · intro other hother
    have hne : other ≠ map := fun heq => hother (Finset.mem_insert.2 (.inl heq))
    exact processTagMap_memory_ne (by simpa using hne)
  · intro other hother entry hentry
    by_cases heq : other = map
    · subst heq
      change entry ∈ (processTagMap _ (.array other)).memory (.array other) at hentry
      rw [processTagMap_memory_self] at hentry
      obtain ⟨old, -, rfl⟩ := List.mem_map.1 hentry
      rfl
    · have hmem := (Finset.mem_insert.1 hother).resolve_left heq
      change entry ∈ (processTagMap _ (.array map)).memory (.array other) at hentry
      rw [processTagMap_memory_ne (by simpa using heq)] at hentry
      exact hi other hmem entry hentry

theorem deregisterMap_keeps (hi : UpToDate s) (frame map : Nat) :
    Confined outside s (.deregisterMap frame map) ∧ UpToDate (step outside s (.deregisterMap frame map)) := by
  refine ⟨⟨by simp [processed], fun _ _ => rfl⟩, ?_⟩
  intro other hother
  exact hi other (Finset.mem_of_mem_erase hother)

theorem loadFile_iff (hf : Frames s) (hn : Numbers S s.languages) (hi : UpToDate s)
    (hout : file.outcome outside = .loaded) (htags : ∀ tag ∈ file.tags outside, tag ∈ S) :
    Confined outside s (.loadFile file) ∧ UpToDate (step outside s (.loadFile file)) ↔
      Harmless outside s (.loadFile file) := by
  have hmemory : ∀ map, (load outside s.languages file).memory (.array map) = s.languages.memory (.array map) :=
    fun map => load_memory (hf.not_mem map) hout
  have hconfined : Confined outside s (.loadFile file) ↔ s.languages.tagMaps = [] := by
    constructor
    · rintro ⟨hprocessed, -⟩
      refine List.eq_nil_iff_forall_not_mem.2 ?_
      intro address haddress
      obtain ⟨map, -, rfl⟩ := hprocessed address haddress
      exact hf.not_mem map haddress
    · intro hempty
      refine ⟨?_, fun map _ => hmemory map⟩
      intro address haddress
      change address ∈ s.languages.tagMaps at haddress
      simp [hempty] at haddress
  rw [hconfined]
  refine and_congr_right fun _ => ?_
  unfold UpToDate step
  dsimp only
  refine forall₂_congr fun map hmap => ?_
  rw [hmemory map]
  refine forall₂_congr fun entry hentry => ?_
  rw [hi map hmap entry hentry]
  exact getTagID_load_iff hn htags entry.tagName

/-- From a state where maps are up to date, a call keeps to the registered maps and leaves
them up to date exactly if it is harmless. -/
theorem step_iff (hf : Frames s) (hn : Numbers S s.languages) (hi : UpToDate s) (hok : Succeeds outside s call)
    (htags : ∀ tag ∈ tags outside call, tag ∈ S) :
    Confined outside s call ∧ UpToDate (step outside s call) ↔ Harmless outside s call := by
  cases call with
  | registerMap frame map => exact iff_of_true (registerMap_keeps hi frame map) trivial
  | deregisterMap frame map => exact iff_of_true (deregisterMap_keeps hi frame map) trivial
  | loadFile file => exact loadFile_iff hf hn hi (loadFile_outcome ▸ hok) htags

/-! ## Any sequence of calls -/

def tagsOf (outside : Outside δ) (calls : List (Call δ)) : Finset Octets := (calls.flatMap (tags outside)).toFinset

/-- Over a sequence of calls, whatever frames they are made from, registered maps stay up to
date and no other memory is taken for a map exactly if every load is harmless. -/
theorem maps_up_to_date_iff (outside : Outside δ) (memory : Address → List TagMapEntry) (calls : List (Call δ))
    (hok : Along (step outside) (Succeeds outside) (start memory) calls)
    (hfits : (tagsOf outside calls).card < UInt32.size) :
    Throughout (step outside) UpToDate (start memory) calls ∧
        Along (step outside) (Confined outside) (start memory) calls ↔
      Along (step outside) (Harmless outside) (start memory) calls := by
  have htags : ∀ call ∈ calls, ∀ tag ∈ tags outside call, tag ∈ tagsOf outside calls :=
    fun call hcall tag htag => List.mem_toFinset.2 (List.mem_flatMap.2 ⟨call, hcall, htag⟩)
  refine throughout_along_iff_of (J := fun s => Frames s ∧ Numbers (tagsOf outside calls) s.languages)
    (R := fun s call => Succeeds outside s call ∧ ∀ tag ∈ tags outside call, tag ∈ tagsOf outside calls) ?_ ?_
    ⟨?_, Numbers.new hfits memory⟩ ?_ ?_
  · rintro s call ⟨hf, hn⟩ ⟨hok, hcall⟩
    exact ⟨hf.step hok, numbers_step hn hcall⟩
  · rintro s call ⟨hf, hn⟩ ⟨hok, hcall⟩ hi
    exact step_iff hf hn hi hok hcall
  · intro address haddress
    simp [start, new] at haddress
  · exact along_and.2 ⟨hok, along_forall.2 htags⟩
  · intro map hmap
    simp [start] at hmap

/-- One array, with one tag that is not known yet. -/
def helloMemory (address : Address) : List TagMapEntry := if address = .array 0 then [⟨octets "HELLO", 0⟩] else []

/-- The array is registered, and then a file defines its tag. -/
def helloCalls : List (Call Unit) :=
  [.registerMap 7 0, .loadFile (.sample ".LANGCODE=en\nHELLO=hello\n" false)]

theorem helloCalls_succeed : Along (step .sample) (Succeeds .sample) (start helloMemory) helloCalls := by
  refine ⟨trivial, ?_, trivial⟩
  change (loadFile .sample _ _).1 = .loaded
  decide +kernel

theorem maps_up_to_date_iff_hello :
    Throughout (step .sample) UpToDate (start helloMemory) helloCalls ∧
        Along (step .sample) (Confined .sample) (start helloMemory) helloCalls ↔
      Along (step .sample) (Harmless .sample) (start helloMemory) helloCalls :=
  maps_up_to_date_iff .sample helloMemory helloCalls helloCalls_succeed (by decide +kernel)

/-- The array keeps the unknown ID: the load has written to the frame of a call that is over. -/
theorem not_up_to_date_hello :
    ¬ ∀ calls : List (Call Unit), Along (step .sample) (Succeeds .sample) (start helloMemory) calls →
      Throughout (step .sample) UpToDate (start helloMemory) calls ∧
        Along (step .sample) (Confined .sample) (start helloMemory) calls := by
  intro h
  obtain ⟨⟨-, -, hlast⟩, -⟩ := h helloCalls helloCalls_succeed
  have hentry := hlast 0 (by decide +kernel) ⟨octets "HELLO", 0⟩ (by decide +kernel)
  exact absurd hentry (by decide +kernel)

end Registrants

end KineIRCd.Languages
