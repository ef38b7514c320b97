import Sinuca3.Lib.Block
import Sinuca3.Source.Tracer.StaticTrace
import Sinuca3.Source.TraceGenerator.OptionSections
import Sinuca3.Source.Yaml.YamlValue

/-!
# Intrinsics of the trace generator

`LoadIntrinsics` of `x86_trace_generator/sinuca3_pintool.cpp`. The arrays of a record are
written by copies that do not know their sizes: one that goes past the end of its array is
the end of the model's run. Pin's numbers for the registers are parameters.
-/
namespace Sinuca3.Source
open Lib

/-- A character of the options. -/
def octet (c : Char) : BitVec 8 := BitVec.ofNat 8 c.toNat

/-- Four octets. -/
abbrev REG : Type := BitVec 32

structure PinRegs where
  named : String → REG
  invalid : REG

/-- Every register the tool supports. -/
def registerNames : List String :=
  ["rax", "rbx", "rcx", "rdx", "rsi", "rdi", "rsp", "rbp", "r8", "r9", "r10", "r11", "r12", "r13",
    "r14", "r15", "xmm0", "xmm1", "xmm2", "xmm3", "xmm4", "xmm5", "xmm6", "xmm7", "xmm8", "xmm9",
    "xmm10", "xmm11", "xmm12", "xmm13", "xmm14", "xmm15", "ymm0", "ymm1", "ymm2", "ymm3", "ymm4",
    "ymm5", "ymm6", "ymm7", "ymm8", "ymm9", "ymm10", "ymm11", "ymm12", "ymm13", "ymm14", "ymm15"]

def registerNameToREG (pin : PinRegs) (name : CString) : REG :=
  match registerNames.find? fun known => octets known = name with
  | some known => pin.named known
  | none => pin.invalid

structure IntrinsicInfo where
  name : Vector (BitVec 8) (instMnemonicLen - 1) := Vector.replicate _ 0
  loaderName : Vector (BitVec 8) (instMnemonicLen + 9) := Vector.replicate _ 0
  read : Vector REG maxRegisters := Vector.replicate _ 0
  write : Vector REG maxRegisters := Vector.replicate _ 0
  numReadRegs : BitVec 8 := 0
  numWriteRegs : BitVec 8 := 0

inductive IntrinsicArray where
  | name | loaderName | read | write
  deriving DecidableEq

inductive IntrinsicFault where
  /-- The splitter has not returned. -/
  | splits
  /-- A section is used that the splitter has not set. -/
  | unset
  /-- Something was written behind the end of an array. -/
  | past (array : IntrinsicArray)
  deriving DecidableEq

/-- A copy to a place in an array. -/
def copyInto {α : Type} {n : Nat} (which : IntrinsicArray) (array : Vector α n) (place : Nat)
    (source : List α) : Except IntrinsicFault (Vector α n) :=
  if inside : place + source.length ≤ array.toList.length then
    .ok ⟨(Block.copy array.toList place source).toArray, by
      rw [List.size_toArray, Block.length_copy _ _ _ inside, Vector.length_toList]⟩
  else .error (.past which)

/-- `strcat`, whose source is a string of its own. -/
def strcat {n : Nat} (which : IntrinsicArray) (array : Vector (BitVec 8) n) (source : CString) :
    Except IntrinsicFault (Vector (BitVec 8) n) :=
  copyInto which array (stringAt array.toList 0).length (source ++ [0])

/-- The splitter on the string at a pointer: the sections, and all of the memory. -/
def splitAt (turns : Nat) (separator : BitVec 8) (str : List (BitVec 8)) (pointer n : Nat) :
    Except IntrinsicFault Sections :=
  match separateStringInSections separator turns (str.drop pointer) n with
  | none => .error .splits
  | some r => .ok { r with
      sections := r.sections.map (pointer + ·)
      str := str.take pointer ++ r.str }

/-- The registers, how many they are, and the memory. -/
def setRegistersInIntrinsicsInfo (pin : PinRegs) (turns : Nat) (which : IntrinsicArray)
    (arr : Vector REG maxRegisters) (str : List (BitVec 8)) (pointer : Nat) :
    Except IntrinsicFault (Vector REG maxRegisters × BitVec 8 × List (BitVec 8)) := do
  let r ← splitAt turns (octet ',') str pointer maxRegisters
  let arr ← copyInto which arr 0 (r.sections.map fun s => registerNameToREG pin (stringAt r.str s))
  return (arr, BitVec.ofNat 8 r.count, r.str)

def sectionOf (r : Sections) (i : Nat) : Except IntrinsicFault Nat :=
  match r.sections[i]? with
  | none => .error .unset
  | some pointer => .ok pointer

/-- What is copied of a name of so many octets, its terminator or the octet there included. -/
def copiedName (nameSize : Nat) : Nat :=
  let nameSize := nameSize % 2 ^ 32
  (if instMnemonicLen < nameSize then instMnemonicLen - 1 else nameSize) + 1

/-- One turn of the loop of `LoadIntrinsics`. -/
def loadIntrinsic (pin : PinRegs) (turns : Nat) (value : CString) :
    Except IntrinsicFault IntrinsicInfo := do
  let r ← splitAt turns (octet ':') (value ++ [0]) 0 3
  let name ← sectionOf r 0
  let readRegs ← sectionOf r 1
  let writeRegs ← sectionOf r 2
  let i : IntrinsicInfo := {}
  let nameSize := (stringAt r.str name).length
  let iName ← copyInto .name i.name 0 (Block.read r.str name (copiedName nameSize))
  let loaderName ← copyInto .loaderName i.loaderName 0 (octets "__" ++ [0])
  let loaderName ← strcat .loaderName loaderName (stringAt iName.toList 0)
  let loaderName ← strcat .loaderName loaderName (octets "Loader")
  let (read, numReadRegs, str) ←
    setRegistersInIntrinsicsInfo pin turns .read i.read r.str readRegs
  let (write, numWriteRegs, _) ←
    setRegistersInIntrinsicsInfo pin turns .write i.write str writeRegs
  return { name := iName, loaderName, read, write, numReadRegs, numWriteRegs }

/-- The records of the options, in order. -/
def loadIntrinsics (pin : PinRegs) (turns : Nat) : List CString →
    Except IntrinsicFault (List IntrinsicInfo)
  | [] => .ok []
  | value :: values => do
    let i ← loadIntrinsic pin turns value
    let rest ← loadIntrinsics pin turns values
    return i :: rest

/-- The fields of a list of registers that are read. -/
def listedRegisters (s : CString) : List CString :=
  fieldsOf (octet ',') maxRegisters s

theorem length_listedRegisters (s : CString) : (listedRegisters s).length ≤ maxRegisters := by
  unfold listedRegisters fieldsOf
  split
  · exact Nat.zero_le _
  · exact List.length_take_le _ _

theorem copyInto_eq {α : Type} {n : Nat} (which : IntrinsicArray) (array : Vector α n)
    {place : Nat} {source : List α} (inside : place + source.length ≤ n) :
    ∃ array' : Vector α n, copyInto which array place source = .ok array' ∧
      array'.toList = Block.copy array.toList place source := by
  rw [← array.length_toList] at inside
  exact ⟨_, dif_pos inside, rfl⟩

theorem copyInto_past {α : Type} {n : Nat} (which : IntrinsicArray) (array : Vector α n)
    {place : Nat} {source : List α} (past : n < place + source.length) :
    copyInto which array place source = .error (.past which) := by
  rw [← array.length_toList] at past
  exact dif_neg (Nat.not_le.mpr past)

theorem stringAt_zero {text : CString} (plain : 0 ∉ text) (rest : List (BitVec 8)) :
    stringAt (text ++ 0 :: rest) 0 = text := stringAt_field [] plain rest

/-- The string in an array grows by one that leaves room for the terminator. -/
theorem strcat_eq {n : Nat} (which : IntrinsicArray) {array : Vector (BitVec 8) n}
    {text source : CString} {rest : List (BitVec 8)} (holds : array.toList = text ++ 0 :: rest)
    (plain : 0 ∉ text) (fits : text.length + source.length < n) :
    ∃ (array' : Vector (BitVec 8) n) (rest' : List (BitVec 8)),
      strcat which array source = .ok array' ∧ array'.toList = text ++ source ++ 0 :: rest' := by
  have place : (stringAt array.toList 0).length = text.length := by
    rw [holds, stringAt_zero plain]
  have inside : text.length + (source ++ [0]).length ≤ n := by
    rw [List.length_append]
    exact fits
  obtain ⟨array', copied, result⟩ := copyInto_eq which array inside
  refine ⟨array', (array.toList).drop (text.length + (source ++ [0]).length), ?_, ?_⟩
  · rw [strcat, place, copied]
  · rw [result, Block.copy, holds, List.take_left]
    simp

/-- A name that fits is copied with its terminator. -/
theorem copiedName_of_short {size : Nat} (short : size < instMnemonicLen - 1) :
    copiedName size = size + 1 := by
  unfold instMnemonicLen at short
  unfold copiedName instMnemonicLen
  rw [Nat.mod_eq_of_lt (by omega)]
  simp only [if_neg (show ¬ 26 < size by omega)]

/-- Of a longer one at least as many octets are copied as the array has, and one more. -/
theorem copiedName_of_long {size : Nat} (long : instMnemonicLen - 1 ≤ size)
    (small : size < 2 ^ 32) :
    instMnemonicLen - 1 < copiedName size ∧ copiedName size ≤ size + 1 := by
  unfold instMnemonicLen at long
  unfold copiedName instMnemonicLen
  rw [Nat.mod_eq_of_lt small]
  dsimp only
  split <;> omega

section Registers

variable (pin : PinRegs) (which : IntrinsicArray) {turns : Nat}

/-- A list of registers in the memory: as many as fit are read, and the memory behind it
stays. -/
theorem setRegistersInIntrinsicsInfo_eq (before behind : List (BitVec 8))
    (arr : Vector REG maxRegisters) {s : CString} (plain : 0 ∉ s)
    (small : s.length < 2 ^ 32) (enough : s.length < turns) :
    ∃ (arr' : Vector REG maxRegisters) (s' : List (BitVec 8)),
      setRegistersInIntrinsicsInfo pin turns which arr (before ++ s ++ 0 :: behind)
          before.length =
        .ok (arr', BitVec.ofNat 8 (listedRegisters s).length, before ++ s' ++ 0 :: behind) ∧
      s'.length = s.length ∧
      arr'.toList.take (listedRegisters s).length =
        (listedRegisters s).map (registerNameToREG pin) := by
  have comma : octet ',' ≠ 0 := by decide
  obtain ⟨s', sections, length, fields, returned⟩ := separateStringInSections_eq plain comma
    (show 1 ≤ maxRegisters by decide)
    (Nat.lt_of_le_of_lt (length_firstFields maxRegisters s) small) behind
  have text : (sections.map (before.length + ·)).map
      (stringAt (before ++ (s' ++ 0 :: behind))) = listedRegisters s := by
    rw [List.map_map, listedRegisters, ← fields]
    exact List.map_congr_left fun k _ => stringAt_append before _ k
  have count : sections.length = (listedRegisters s).length := by
    rw [← text, List.length_map, List.length_map]
  have split : splitAt turns (octet ',') (before ++ s ++ 0 :: behind)
      before.length maxRegisters =
      .ok ⟨sections.length, sections.map (before.length + ·), before ++ (s' ++ 0 :: behind)⟩ := by
    rw [splitAt, List.append_assoc, List.drop_left, returned turns enough, List.take_left]
  have room : 0 + ((listedRegisters s).map (registerNameToREG pin)).length ≤ maxRegisters := by
    rw [Nat.zero_add, List.length_map]
    exact length_listedRegisters s
  obtain ⟨arr', copied, result⟩ := copyInto_eq which arr room
  have registers : (sections.map (before.length + ·)).map (fun k => registerNameToREG pin
      (stringAt (before ++ (s' ++ 0 :: behind)) k)) =
      (listedRegisters s).map (registerNameToREG pin) := by
    rw [← text]
    simp only [List.map_map, Function.comp_def]
  refine ⟨arr', s', ?_, length, ?_⟩
  · rw [setRegistersInIntrinsicsInfo, split, ← count, List.append_assoc]
    show (copyInto which arr 0 ((sections.map (before.length + ·)).map _) >>= _) = _
    rw [registers, copied]
    rfl
  · rw [result, Block.copy, List.take_zero, List.nil_append, List.take_left' (List.length_map _)]

end Registers

/-- An option `name:readregs:writeregs`, of a size that the splitter's index can count. -/
structure IntrinsicOption where
  name : CString
  readRegs : CString
  writeRegs : CString
  name_plain : 0 ∉ name ∧ octet ':' ∉ name
  readRegs_plain : 0 ∉ readRegs ∧ octet ':' ∉ readRegs
  writeRegs_plain : 0 ∉ writeRegs ∧ octet ':' ∉ writeRegs
  small : name.length + readRegs.length + writeRegs.length + 2 < 2 ^ 32

namespace IntrinsicOption

variable (pin : PinRegs) (o : IntrinsicOption) {turns : Nat}

def text : CString :=
  o.name ++ octet ':' :: (o.readRegs ++ octet ':' :: o.writeRegs)

theorem length_text : o.text.length = o.name.length + o.readRegs.length + o.writeRegs.length + 2 := by
  simp only [text, List.length_append, List.length_cons]
  omega

/-- What the record of an option is to hold. -/
structure LoadedAs (i : IntrinsicInfo) : Prop where
  name : stringAt i.name.toList 0 = o.name
  loaderName : stringAt i.loaderName.toList 0 = octets "__" ++ o.name ++ octets "Loader"
  numReadRegs : i.numReadRegs.toNat = (listedRegisters o.readRegs).length
  numWriteRegs : i.numWriteRegs.toNat = (listedRegisters o.writeRegs).length
  read : i.read.toList.take i.numReadRegs.toNat =
    (listedRegisters o.readRegs).map (registerNameToREG pin)
  write : i.write.toList.take i.numWriteRegs.toNat =
    (listedRegisters o.writeRegs).map (registerNameToREG pin)

/-- The three strings in the memory, and where they start. -/
theorem splitAt_text (enough : o.text.length < turns) :
    splitAt turns (octet ':') (o.text ++ [0]) 0 3 =
      .ok { count := 3
            sections := [0, o.name.length + 1, o.name.length + 1 + o.readRegs.length + 1]
            str := o.name ++ 0 :: (o.readRegs ++ 0 :: (o.writeRegs ++ [0])) } := by
  have small := o.small
  rw [length_text] at enough
  have colon : octet ':' ≠ 0 := by decide
  obtain ⟨c, first, plain⟩ : ∃ c, (o.text ++ [0])[0]? = some c ∧ c ≠ 0 := by
    unfold text
    cases name : o.name with
    | nil => exact ⟨_, rfl, colon⟩
    | cons c rest =>
      refine ⟨c, rfl, ?_⟩
      rintro rfl
      exact o.name_plain.1 (name ▸ List.mem_cons_self ..)
  have one : separateFrom (octet ':') turns 3 0 { count := 0, sections := [], str := o.text ++ [0] } =
      separateFrom (octet ':') turns 2 (o.name.length + 1)
        { count := 1
          sections := [0]
          str := o.name ++ 0 :: (o.readRegs ++ octet ':' :: (o.writeRegs ++ [0])) } := by
    have memory : o.text ++ [0] =
        [] ++ o.name ++ octet ':' :: (o.readRegs ++ octet ':' :: (o.writeRegs ++ [0])) := by
      simp [text]
    have index : (0 + o.name.length + 1) % 2 ^ 32 = o.name.length + 1 := by
      rw [Nat.zero_add, Nat.mod_eq_of_lt (by omega)]
    rw [separateFrom_field 2 List.length_nil o.name_plain.2 o.name_plain.1 (by omega) (by omega)
      memory, index]
    rfl
  have two : separateFrom (octet ':') turns 2 (o.name.length + 1)
        { count := 1
          sections := [0]
          str := o.name ++ 0 :: (o.readRegs ++ octet ':' :: (o.writeRegs ++ [0])) } =
      separateFrom (octet ':') turns 1 (o.name.length + 1 + o.readRegs.length + 1)
        { count := 2
          sections := [0, o.name.length + 1]
          str := o.name ++ 0 :: (o.readRegs ++ 0 :: (o.writeRegs ++ [0])) } := by
    have memory : o.name ++ 0 :: (o.readRegs ++ octet ':' :: (o.writeRegs ++ [0])) =
        o.name ++ [0] ++ o.readRegs ++ octet ':' :: (o.writeRegs ++ [0]) := by simp
    have start : (o.name ++ [0]).length = o.name.length + 1 := List.length_append
    have index : (o.name.length + 1 + o.readRegs.length + 1) % 2 ^ 32 =
        o.name.length + 1 + o.readRegs.length + 1 := Nat.mod_eq_of_lt (by omega)
    rw [separateFrom_field 1 start o.readRegs_plain.2 o.readRegs_plain.1 (by omega) (by omega)
      memory, index]
    simp
  have three : separateFrom (octet ':') turns 1 (o.name.length + 1 + o.readRegs.length + 1)
        { count := 2
          sections := [0, o.name.length + 1]
          str := o.name ++ 0 :: (o.readRegs ++ 0 :: (o.writeRegs ++ [0])) } =
      some { count := 3
             sections := [0, o.name.length + 1, o.name.length + 1 + o.readRegs.length + 1]
             str := o.name ++ 0 :: (o.readRegs ++ 0 :: (o.writeRegs ++ [0])) } := by
    have memory : o.name ++ 0 :: (o.readRegs ++ 0 :: (o.writeRegs ++ [0])) =
        o.name ++ 0 :: (o.readRegs ++ [0]) ++ o.writeRegs ++ 0 :: [] := by simp
    have start : (o.name ++ 0 :: (o.readRegs ++ [0])).length =
        o.name.length + 1 + o.readRegs.length + 1 := by
      simp only [List.length_append, List.length_cons, List.length_nil]
      omega
    rw [separateFrom_last 0 start colon o.writeRegs_plain.2 o.writeRegs_plain.1 (by omega)
      (by omega) memory]
    rfl
  rw [splitAt, List.drop_zero, separateStringInSections, first]
  simp only [if_neg plain, one, two, three]
  simp

/-- The memory once the option is split. -/
def splitText : List (BitVec 8) :=
  o.name ++ 0 :: (o.readRegs ++ 0 :: (o.writeRegs ++ [0]))

/-- What is left to do once the option is split. -/
theorem loadIntrinsic_eq (enough : o.text.length < turns) :
    loadIntrinsic pin turns o.text = (do
      let i : IntrinsicInfo := {}
      let iName ← copyInto .name i.name 0 (Block.read o.splitText 0 (copiedName o.name.length))
      let loaderName ← copyInto .loaderName i.loaderName 0 (octets "__" ++ [0])
      let loaderName ← strcat .loaderName loaderName (stringAt iName.toList 0)
      let loaderName ← strcat .loaderName loaderName (octets "Loader")
      let (read, numReadRegs, str) ← setRegistersInIntrinsicsInfo pin turns .read i.read
        o.splitText (o.name.length + 1)
      let (write, numWriteRegs, _) ← setRegistersInIntrinsicsInfo pin turns .write i.write str
        (o.name.length + 1 + o.readRegs.length + 1)
      return { name := iName, loaderName, read, write, numReadRegs, numWriteRegs }) := by
  have name : stringAt o.splitText 0 = o.name := stringAt_zero o.name_plain.1 _
  rw [loadIntrinsic, o.splitAt_text enough]
  simp only [bind, Except.bind, sectionOf, List.getElem?_cons_zero, List.getElem?_cons_succ]
  rw [← splitText, name]

/-- A name that does not fit in its array with its terminator is written past the end. -/
theorem loadIntrinsic_long (enough : o.text.length < turns)
    (long : instMnemonicLen - 1 ≤ o.name.length) :
    loadIntrinsic pin turns o.text = .error (.past .name) := by
  have small := o.small
  obtain ⟨more, source⟩ := copiedName_of_long long (by omega)
  have size : (Block.read o.splitText 0 (copiedName o.name.length)).length =
      copiedName o.name.length := by
    refine Block.length_read _ _ _ ?_
    rw [Nat.zero_add, splitText, List.length_append, List.length_cons]
    omega
  have past : instMnemonicLen - 1 <
      0 + (Block.read o.splitText 0 (copiedName o.name.length)).length := by
    rw [size, Nat.zero_add]
    exact more
  rw [o.loadIntrinsic_eq pin enough]
  simp only [copyInto_past .name _ past, bind, Except.bind]

section Short

variable (short : o.name.length < instMnemonicLen - 1)

include short

/-- A shorter one is copied with its terminator. -/
theorem copyName_eq (array : Vector (BitVec 8) (instMnemonicLen - 1)) :
    ∃ iName, copyInto .name array 0 (Block.read o.splitText 0 (copiedName o.name.length)) =
      .ok iName ∧ stringAt iName.toList 0 = o.name := by
  have copied : Block.read o.splitText 0 (copiedName o.name.length) = o.name ++ [0] := by
    have memory : o.splitText = o.name ++ [0] ++ (o.readRegs ++ 0 :: (o.writeRegs ++ [0])) := by
      simp [splitText]
    have size : (o.name ++ [0]).length = o.name.length + 1 := List.length_append
    rw [copiedName_of_short short, Block.read, List.drop_zero, memory, List.take_left' size]
  have fits : 0 + (o.name ++ [0]).length ≤ instMnemonicLen - 1 := by
    rw [Nat.zero_add, List.length_append]
    exact short
  obtain ⟨iName, name, nameOctets⟩ := copyInto_eq .name array fits
  refine ⟨iName, copied ▸ name, ?_⟩
  rw [nameOctets, Block.copy, List.take_zero, List.nil_append, List.append_assoc]
  exact stringAt_zero o.name_plain.1 _

/-- The loader's name then fits with what is put around it. -/
theorem loaderName_eq (array : Vector (BitVec 8) (instMnemonicLen + 9)) :
    ∃ start named loaderName,
      copyInto .loaderName array 0 (octets "__" ++ [0]) = .ok start ∧
      strcat .loaderName start o.name = .ok named ∧
      strcat .loaderName named (octets "Loader") = .ok loaderName ∧
      stringAt loaderName.toList 0 = octets "__" ++ o.name ++ octets "Loader" := by
  have startFits : 0 + (octets "__" ++ [0]).length ≤ instMnemonicLen + 9 := by decide
  obtain ⟨start, started, startOctets⟩ := copyInto_eq .loaderName array startFits
  have underscores : 0 ∉ octets "__" := by decide
  obtain ⟨rest, startText⟩ : ∃ rest, start.toList = octets "__" ++ 0 :: rest := by
    refine ⟨array.toList.drop (0 + (octets "__" ++ [0]).length), ?_⟩
    rw [startOctets, Block.copy, List.take_zero, List.nil_append, List.append_assoc]
    rfl
  have twoOctets : (octets "__").length = 2 := by decide
  have sixOctets : (octets "Loader").length = 6 := by decide
  unfold instMnemonicLen at short
  have nameRoom : (octets "__").length + o.name.length < instMnemonicLen + 9 := by
    rw [twoOctets]
    unfold instMnemonicLen
    omega
  obtain ⟨named, rest', appended, namedText⟩ :=
    strcat_eq .loaderName startText underscores nameRoom
  have plain : 0 ∉ octets "__" ++ o.name := by
    rw [List.mem_append, not_or]
    exact ⟨underscores, o.name_plain.1⟩
  have loaderRoom : (octets "__" ++ o.name).length + (octets "Loader").length <
      instMnemonicLen + 9 := by
    rw [List.length_append, twoOctets, sixOctets]
    unfold instMnemonicLen
    omega
  obtain ⟨loaderName, rest'', finished, loaderText⟩ :=
    strcat_eq .loaderName namedText plain loaderRoom
  refine ⟨start, named, loaderName, started, appended, finished, ?_⟩
  have plain' : 0 ∉ octets "__" ++ o.name ++ octets "Loader" := by
    rw [List.mem_append, not_or]
    exact ⟨plain, by decide⟩
  rw [loaderText]
  exact stringAt_zero plain' rest''

end Short

/-- The two lists of registers are read one after the other. -/
theorem setRegisters_eq (enough : o.text.length < turns) (arr arr' : Vector REG maxRegisters) :
    ∃ read str write str',
      setRegistersInIntrinsicsInfo pin turns .read arr o.splitText (o.name.length + 1) =
        .ok (read, BitVec.ofNat 8 (listedRegisters o.readRegs).length, str) ∧
      setRegistersInIntrinsicsInfo pin turns .write arr' str
          (o.name.length + 1 + o.readRegs.length + 1) =
        .ok (write, BitVec.ofNat 8 (listedRegisters o.writeRegs).length, str') ∧
      read.toList.take (listedRegisters o.readRegs).length =
        (listedRegisters o.readRegs).map (registerNameToREG pin) ∧
      write.toList.take (listedRegisters o.writeRegs).length =
        (listedRegisters o.writeRegs).map (registerNameToREG pin) := by
  have small := o.small
  rw [length_text] at enough
  have readMemory : o.splitText = o.name ++ [0] ++ o.readRegs ++ 0 :: (o.writeRegs ++ [0]) := by
    simp [splitText]
  have readPointer : (o.name ++ [0]).length = o.name.length + 1 := List.length_append
  obtain ⟨read, readRegs', readSet, readLength, readRegisters⟩ :=
    setRegistersInIntrinsicsInfo_eq pin .read (o.name ++ [0]) (o.writeRegs ++ [0])
      arr o.readRegs_plain.1 (by omega) (show o.readRegs.length < turns by omega)
  have writeMemory : o.name ++ [0] ++ readRegs' ++ 0 :: (o.writeRegs ++ [0]) =
      o.name ++ [0] ++ readRegs' ++ [0] ++ o.writeRegs ++ 0 :: [] := by simp
  have writePointer : (o.name ++ [0] ++ readRegs' ++ [0]).length =
      o.name.length + 1 + o.readRegs.length + 1 := by
    simp only [List.length_append, List.length_singleton, readLength]
  obtain ⟨write, writeRegs', writeSet, _, writeRegisters⟩ :=
    setRegistersInIntrinsicsInfo_eq pin .write (o.name ++ [0] ++ readRegs' ++ [0]) []
      arr' o.writeRegs_plain.1 (by omega) (show o.writeRegs.length < turns by omega)
  rw [readPointer, ← readMemory, writeMemory] at readSet
  rw [writePointer] at writeSet
  exact ⟨read, _, write, _, readSet, writeSet, readRegisters, writeRegisters⟩

/-- Any other option is loaded as it says. -/
theorem loadIntrinsic_short (enough : o.text.length < turns)
    (short : o.name.length < instMnemonicLen - 1) :
    ∃ i, loadIntrinsic pin turns o.text = .ok i ∧ o.LoadedAs pin i := by
  obtain ⟨iName, name, nameText⟩ := o.copyName_eq short (Vector.replicate _ 0)
  obtain ⟨start, named, loaderName, started, appended, finished, loaderText⟩ :=
    o.loaderName_eq short (Vector.replicate _ 0)
  obtain ⟨read, str, write, str', readSet, writeSet, readRegisters, writeRegisters⟩ :=
    o.setRegisters_eq pin enough (Vector.replicate maxRegisters 0) (Vector.replicate maxRegisters 0)
  have few : ∀ s, (BitVec.ofNat 8 (listedRegisters s).length).toNat =
      (listedRegisters s).length := by
    intro s
    have most := length_listedRegisters s
    unfold maxRegisters at most
    rw [BitVec.toNat_ofNat, Nat.mod_eq_of_lt (by omega)]
  refine ⟨{ name := iName, loaderName, read, write,
            numReadRegs := BitVec.ofNat 8 (listedRegisters o.readRegs).length,
            numWriteRegs := BitVec.ofNat 8 (listedRegisters o.writeRegs).length }, ?_, nameText,
    loaderText, few _, few _, ?_, ?_⟩
  · rw [o.loadIntrinsic_eq pin enough]
    simp only [name, started, nameText, appended, finished, readSet, writeSet, bind, Except.bind]
    rfl
  · rw [few]
    exact readRegisters
  · rw [few]
    exact writeRegisters

end IntrinsicOption

end Sinuca3.Source
