import LibSurvey.Failure
import LibSurvey.FileTree
import LibSurvey.Object.Coff
import LibSurvey.Object.Elf
import LibSurvey.Object.MachO

/-!
Opening an object file: the first bytes tell its format.
-/

namespace LibSurvey.Object

inductive Kind where
  | elf (wide : Bool)
  | machO (cls : MachO.Class)
  | coff
  | largeCoff
  | image (wide : Bool)
  | xcoff (wide : Bool)
  /-- Known, but no single object. -/
  | collection
deriving DecidableEq, Repr

inductive Fault where
  | noMagic
  | unknownMagic
  | unknownDos
  | notAnObject
  | xcoffHeader
  | elf (fault : Elf.Fault)
  | machO (fault : MachO.Fault)
  | coff (fault : Coff.Fault)
deriving DecidableEq, Repr

def Fault.message : Fault → String
  | .noMagic => "Could not read file magic"
  | .unknownMagic => "Unknown file magic"
  | .unknownDos => "Unknown MS-DOS file"
  | .notAnObject => "Unsupported file format"
  | .xcoffHeader => "Invalid XCOFF header size or alignment"
  | .elf fault => fault.message
  | .machO fault => fault.message
  | .coff fault => fault.message

/-- The format that the first bytes of a file name. -/
def kindOf (bytes : ByteArray) : Except Fault Kind :=
  if bytes.size < 16 then .error .noMagic
  else match (bytes.extract 0 8).toList with
    | [0x21, 0x3c, 0x61, 0x72, 0x63, 0x68, 0x3e, 0x0a] => .ok .collection
    | [0x21, 0x3c, 0x74, 0x68, 0x69, 0x6e, 0x3e, 0x0a] => .ok .collection
    | [0x64, 0x79, 0x6c, 0x64, 0x5f, 0x76, 0x31, 0x20] => .ok .collection
    | 0x7f :: 0x45 :: 0x4c :: 0x46 :: 1 :: _ => .ok (.elf false)
    | 0x7f :: 0x45 :: 0x4c :: 0x46 :: 2 :: _ => .ok (.elf true)
    | 0xfe :: 0xed :: 0xfa :: 0xce :: _ => .ok (.machO ⟨false, .big⟩)
    | 0xce :: 0xfa :: 0xed :: 0xfe :: _ => .ok (.machO ⟨false, .little⟩)
    | 0xfe :: 0xed :: 0xfa :: 0xcf :: _ => .ok (.machO ⟨true, .big⟩)
    | 0xcf :: 0xfa :: 0xed :: 0xfe :: _ => .ok (.machO ⟨true, .little⟩)
    | 0xca :: 0xfe :: 0xba :: 0xbe :: _ => .ok .collection
    | 0xca :: 0xfe :: 0xba :: 0xbf :: _ => .ok .collection
    | 0x4d :: 0x5a :: _ =>
      match Coff.imageIsWide? bytes with
      | some wide => .ok (.image wide)
      | none => .error .unknownDos
    | 0xc4 :: 0x01 :: _ => .ok .coff
    | 0x64 :: 0xaa :: _ => .ok .coff
    | 0x41 :: 0xa6 :: _ => .ok .coff
    | 0x4c :: 0x01 :: _ => .ok .coff
    | 0x64 :: 0x86 :: _ => .ok .coff
    | 0xf0 :: 0x01 :: _ => .ok .coff
    | 0xf1 :: 0x01 :: _ => .ok .coff
    | 0xf2 :: 0x01 :: _ => .ok .coff
    | 0x00 :: 0x00 :: 0xff :: 0xff :: 0x00 :: 0x00 :: _ => .ok .collection
    | 0x00 :: 0x00 :: 0xff :: 0xff :: 0x02 :: 0x00 :: _ => .ok .largeCoff
    | 0x01 :: 0xdf :: _ => .ok (.xcoff false)
    | 0x01 :: 0xf7 :: _ => .ok (.xcoff true)
    | _ => .error .unknownMagic

/-- An object of a format whose tables are not read. -/
def unread : File where
  architecture := .unknown
  endian := .big
  underscored := false
  dynamic := none
  symbols := []
  contents? := fun _ => none

def openKind? (bytes : ByteArray) : Kind → Except Fault File
  | .elf wide => (Elf.open? bytes wide).mapError .elf
  | .machO cls => (MachO.open? bytes cls).mapError .machO
  | .coff => (Coff.open? bytes).mapError .coff
  | .largeCoff => (Coff.openLarge? bytes).mapError .coff
  | .image wide => (Coff.openImage? bytes wide).mapError .coff
  | .xcoff wide =>
    if bytes.size < (if wide then 24 else 20) then .error .xcoffHeader else .ok unread
  | .collection => .error .notAnObject

def ofBytes? (bytes : ByteArray) : Except Fault File :=
  (kindOf bytes).bind (openKind? bytes)

/-- The object at a path. -/
def open? (files : FileView) (path : Path) : Except Failure File :=
  match files.read path with
  | .error error => .error (.unreadableObject path error.message)
  | .ok bytes =>
    match ofBytes? bytes with
    | .ok file => .ok file
    | .error fault => .error (.unreadableObject path fault.message)

end LibSurvey.Object
