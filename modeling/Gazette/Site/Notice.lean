import Gazette.Json.Decoder

/-!
# Notices of changes

Whoever changes a feed's documents may say what was changed. The site rebuilds the whole feed in any
case, so a notice only has to be well formed.
-/

namespace Gazette

inductive ChangeEvent where
  | create
  | update
  | delete
  deriving Repr, DecidableEq

structure ChangeNotice where
  event : Option ChangeEvent
  id : Option String
  deriving Repr, DecidableEq

namespace ChangeNotice

def blank : ChangeNotice := ⟨none, none⟩

open Json Json.Decoder in
def decoder : Decoder ChangeNotice :=
  record "struct ChangeNotice" blank
    [.optional "event"
        (variant
          [("create", ChangeEvent.create), ("update", ChangeEvent.update),
            ("delete", ChangeEvent.delete)])
        fun event notice => { notice with event },
      .optional "id" text fun id notice => { notice with id }]

def isBlank (byte : UInt8) : Bool :=
  byte == 0x20 || byte == 0x09 || byte == 0x0A || byte == 0x0C || byte == 0x0D

/-- The notice in the body of a request, which may be blank, or what is wrong with it. -/
def read (body : List UInt8) : Except String ChangeNotice :=
  if body.all isBlank then .ok blank
  else (decoder.ofBytes body).mapError fun fault => fault.message body

end ChangeNotice

end Gazette
