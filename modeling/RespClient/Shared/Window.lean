/-!
# Shared/Window — how much the next read may give

    room      4096   ·   4090   ·  …  ·   2040        4096
    deeds        filled 6             …        reserved

A receive window has room for so many bytes, and every byte read uses room up.  One less than half open is
asked to make room anew.  What comes of that, and how much room a read is given in the end, is the matter of
the buffer behind it (`Growth`).

All this shows in one place only: how much of a line too long is there when it is refused.
-/

namespace RespClient

/-- **What is done to a buffer.** -/
inductive BufferDeed
  /-- It is asked to have room for as many bytes as it was made for. -/
  | reserved
  /-- So many bytes are read into it, and taken out. -/
  | filled (n : Nat)
deriving DecidableEq

/-- **How a buffer grows**, by how many bytes it was made for and what was done to it, the last first. -/
structure Growth where
  /-- The room that it has. -/
  spare : Nat → List BufferDeed → Nat
  /-- The room that it gives to a read, which may make it grow. -/
  gives : Nat → List BufferDeed → Nat

/-- **How much the next read may give.** -/
structure Window where
  size : Nat
  growth : Growth
  /-- What was done to the buffer, the last first. -/
  deeds : List BufferDeed := []

namespace Window

/-- The window as a read finds it. -/
def ready (w : Window) : Window :=
  if w.growth.spare w.size w.deeds < w.size / 2 then { w with deeds := .reserved :: w.deeds } else w

/-- The room for the next read. -/
def room (w : Window) : Nat := w.growth.gives w.size w.deeds

/-- The window after so many bytes were read. -/
def shrink (w : Window) (n : Nat) : Window := { w with deeds := .filled n :: w.deeds }

end Window

end RespClient
