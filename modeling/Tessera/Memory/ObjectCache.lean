import Tessera.Config
import Tessera.Arch
import Tessera.Object
import Tessera.Lib.Slots

/-!
The kernel's record of which pages of a pager-backed object are resident and
which of them are dirty.
-/
namespace Tessera

inductive DirtyOutcome where
  | marked | throttle
  deriving DecidableEq

inductive WriteBack where
  | idle | inFlight | redirtied
  deriving DecidableEq

structure PageEntry where
  offset : Nat
  dirty : Bool
  writeBack : WriteBack
  deriving DecidableEq

structure ObjectCache (cfg : Config) where
  pages : Slots PageEntry cfg.maxCachedPages
  dirtyLimit : Nat
  faulted : Bool
  deriving DecidableEq

namespace ObjectCache
variable {cfg : Config}

section
variable (c : ObjectCache cfg) (offset : Nat)

def new (dirtyLimit : Nat) : ObjectCache cfg := ⟨.empty, dirtyLimit, false⟩

def atOffset (offset : Nat) (e : PageEntry) : Bool := e.offset = offset

def install : Except KError Unit × ObjectCache cfg :=
  if c.faulted then (.error .badHandle, c)
  else if (c.pages.index? (atOffset offset)).isSome then (.ok (), c)
  else
    match c.pages.free? with
    | none => (.error .outOfMemory, c)
    | some slot => (.ok (), { c with pages := c.pages.put slot ⟨offset, false, .idle⟩ })

def dirtyCount : Nat := (c.pages.live.filter (·.dirty)).length

def isDirty : Bool :=
  ((c.pages.find? (atOffset offset)).map (·.dirty)).getD false

def markDirty : DirtyOutcome × ObjectCache cfg :=
  match c.pages.find? (atOffset offset) with
  | none => (.throttle, c)
  | some page =>
    if !page.dirty && c.dirtyLimit ≤ c.dirtyCount then (.throttle, c)
    else
      (.marked, { c with pages := c.pages.modify (atOffset offset) fun p =>
        { p with
          dirty := true
          writeBack := if p.writeBack = .inFlight then .redirtied else p.writeBack } })

def markClean : ObjectCache cfg :=
  { c with pages := c.pages.modify (atOffset offset) fun p => { p with dirty := false } }

def beginWriteBack : ObjectCache cfg :=
  { c with pages := c.pages.modify (atOffset offset) fun p =>
      if p.writeBack = .idle then { p with writeBack := .inFlight } else p }

def endWriteBack : Bool × ObjectCache cfg :=
  (((c.pages.find? (atOffset offset)).map fun p => decide (p.writeBack = .redirtied)).getD false,
    { c with pages := c.pages.modify (atOffset offset) fun p => { p with writeBack := .idle } })

def evictCandidate : Option Nat :=
  ((c.pages.live.filter (!·.dirty)).map (·.offset)).min?

def dirtyOffsets (room : Nat) : List Nat :=
  (((c.pages.live.filter (·.dirty)).map (·.offset)).take room).insertionSort (· ≤ ·)

def forget : ObjectCache cfg :=
  match c.pages.index? (atOffset offset) with
  | some i => { c with pages := c.pages.clear i }
  | none => c

end

end ObjectCache
end Tessera
