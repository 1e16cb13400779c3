import OpenMul.Core.Flow
import OpenMul.Lib.BigEndian

namespace OpenMul

open Lib (wordAt)

/-- `enum ofp_instruction_type`. -/
inductive InstType where
  | gotoTable | writeMetadata | writeActions | applyActions | clearActions | meter | experimenter
  deriving DecidableEq, Repr

/-- The actions `of131_parse_actions` knows. -/
inductive ActType where
  | output | copyTtlOut | copyTtlIn | mplsTtl | decMplsTtl | pushVlan | popVlan | pushMpls | popMpls
  | setQueue | group | setNwTtl | decNwTtl | setField | pushPbb | popPbb
  deriving DecidableEq, Repr

namespace InstType

def num : InstType → BitVec 16
  | gotoTable => 1
  | writeMetadata => 2
  | writeActions => 3
  | applyActions => 4
  | clearActions => 5
  | meter => 6
  | experimenter => 0xffff

def all : List InstType :=
  [gotoTable, writeMetadata, writeActions, applyActions, clearActions, meter, experimenter]

/-- The switch of `of131_parse_instructions`. -/
def ofNum (type : BitVec 16) : Option InstType := all.find? fun known => known.num == type

/-- The size of the instruction's structure. -/
def size : InstType → Nat
  | writeMetadata => 24
  | _ => 8

/-- The instructions with a list of actions. -/
def hasActions (type : InstType) : Bool := type = writeActions || type = applyActions

end InstType

namespace ActType

def num : ActType → BitVec 16
  | output => 0
  | copyTtlOut => 11
  | copyTtlIn => 12
  | mplsTtl => 15
  | decMplsTtl => 16
  | pushVlan => 17
  | popVlan => 18
  | pushMpls => 19
  | popMpls => 20
  | setQueue => 21
  | group => 22
  | setNwTtl => 23
  | decNwTtl => 24
  | setField => 25
  | pushPbb => 26
  | popPbb => 27

def all : List ActType :=
  [output, copyTtlOut, copyTtlIn, mplsTtl, decMplsTtl, pushVlan, popVlan, pushMpls, popMpls,
    setQueue, group, setNwTtl, decNwTtl, setField, pushPbb, popPbb]

/-- The switch of `of131_parse_actions`. -/
def ofNum (type : BitVec 16) : Option ActType := all.find? fun known => known.num == type

/-- The size of the action's structure. -/
def size : ActType → Nat
  | output => 16
  | _ => 8

end ActType

/-- The type and the length field of the instruction or action at an offset. -/
def headType (msg : List Byte) (pos : Nat) : BitVec 16 := wordAt 16 (msg.drop pos)

def headLen (msg : List Byte) (pos : Nat) : BitVec 16 := wordAt 16 (msg.drop (pos + 2))

def ofpp131Controller : BitVec 32 := 0xfffffffd

def ofpMaxInstructions : Nat := 6
def ofpMaxActions : Nat := 32

/-- `struct ofp_inst_parser_arg`. -/
structure ParserArg (User : Type) where
  msg : List Byte
  res : Int := 0
  user : User

section Parse

variable {User : Type}

/-- A handler is called with the offset of its instruction or action. -/
abbrev Handler (User : Type) := Nat → ParserArg User → ParserArg User

/-- `struct ofp_inst_parsers`. A callback that is `NULL` changes nothing. -/
structure InstParsers (User : Type) where
  noInst : Option (ParserArg User → ParserArg User) := none
  preProc : ParserArg User → ParserArg User := id
  postProc : ParserArg User → ParserArg User := id
  inst : InstType → Handler User

/-- The loop of `of131_parse_actions`. The first argument is how often it may
still turn; the length left wraps as a `size_t` does. -/
def parseActionsLoop (acts : ActType → Handler User) :
    Nat → Nat → BitVec 64 → ParserArg User → ParserArg User
  | 0, _, _, arg => arg
  | room + 1, pos, actLen, arg =>
    if actLen = 0 ∨ arg.res ≠ 0 then arg
    else
      match ActType.ofNum (headType arg.msg pos) with
      | none => arg
      | some type =>
        let arg := acts type pos arg
        let len := headLen arg.msg pos
        parseActionsLoop acts room (pos + len.toNat) (actLen - len.setWidth 64) arg

/-- `of131_parse_actions`. -/
def of131ParseActions (acts : ActType → Handler User) (pos : Nat) (actLen : BitVec 64)
    (arg : ParserArg User) : ParserArg User :=
  parseActionsLoop acts (ofpMaxActions + 1) pos actLen arg

/-- The loop of `of131_parse_instructions`. Only a loop that reaches the end of
the list is followed by `post_proc`. -/
def parseInstLoop (parsers : InstParsers User) :
    Nat → Nat → BitVec 64 → ParserArg User → ParserArg User
  | 0, _, instLen, arg => if instLen = 0 then parsers.postProc arg else arg
  | room + 1, pos, instLen, arg =>
    if instLen = 0 then parsers.postProc arg
    else if arg.res ≠ 0 then arg
    else
      match InstType.ofNum (headType arg.msg pos) with
      | none => arg
      | some type =>
        let arg := parsers.inst type pos arg
        let len := headLen arg.msg pos
        parseInstLoop parsers room (pos + len.toNat) (instLen - len.setWidth 64) arg

/-- `of131_parse_instructions`. -/
def of131ParseInstructions (parsers : InstParsers User) (acts : ActType → Handler User)
    (instLen : BitVec 64) (actsOnly : Bool) (arg : ParserArg User) : ParserArg User :=
  match (if instLen = 0 then parsers.noInst else none) with
  | some noInst => noInst arg
  | none =>
    if actsOnly then of131ParseActions acts 0 instLen arg
    else parseInstLoop parsers (ofpMaxInstructions + 1) 0 instLen (parsers.preProc arg)

end Parse

/-- There are no more types than the loop has turns. -/
theorem types_le_turns {types : List InstType} (nodup : types.Nodup) :
    types.length ≤ ofpMaxInstructions + 1 := by
  have known : types ⊆ InstType.all := by
    intro type _
    cases type <;> simp [InstType.all]
  exact (nodup.subperm known).length_le

end OpenMul
