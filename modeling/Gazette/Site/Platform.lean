import Gazette.Time.Zone

/-!
# Platforms

What a site is given from elsewhere: the time zones that can be named, and the numbers that tell the
bodies of its responses apart. Nothing else depends on how a zone finds its offsets, or on how a
number is made of some bytes.
-/

namespace Gazette

structure Platform where
  zone? : String → Option Time.Zone
  /-- The number of some bytes. -/
  fingerprint : List UInt8 → UInt64

namespace Platform

/-- A number into which every byte is mixed in turn. -/
def mix (bytes : List UInt8) : UInt64 :=
  bytes.foldl (fun hash byte => (hash ^^^ byte.toUInt64) * 0x100000001B3) 0xCBF29CE484222325

/-- The platform with the built-in zones. -/
def builtIn : Platform := ⟨Time.Zone.ofName?, mix⟩

end Platform

end Gazette
