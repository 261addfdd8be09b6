import Tessera.Arch
import Tessera.Object

/-!
The page tables of one address space, as an architecture port keeps them: leaf
entries by page number, and the table frames drawn on the way to them. How many tables
lie on the way to an address, and which of them the space owns alone, is up to the
port, as are the flag sets it can express. A port looks at the low bits of an address
alone, so a page number stands for its entry among canonical addresses only. A call that
fails half way keeps the tables it has drawn.
-/
namespace Tessera
open Function FrameSource

structure PageFlags where
  readable : Bool
  writable : Bool
  executable : Bool
  isUser : Bool
  isGlobal : Bool
  isDevice : Bool
  deriving DecidableEq

namespace PageFlags

def none : PageFlags := ⟨false, false, false, false, false, false⟩
def rw : PageFlags := { none with readable := true, writable := true }
def rx : PageFlags := { none with readable := true, executable := true }
def user (f : PageFlags) : PageFlags := { f with isUser := true }
def device (f : PageFlags) : PageFlags := { f with isDevice := true }

def isWx (f : PageFlags) : Bool := f.writable && f.executable

end PageFlags

structure ArchPort where
  userAddressMax : Nat
  invalidateIsBroadcast : Bool
  accepts : PageFlags → Bool
  walk : Nat → List Nat
  owned : Nat → Bool

/-- The x86-64 port: three levels of tables under the top-level one. A table is
    named by its level and the address bits that lead to it, and the lower half of
    the address range belongs to the space alone. -/
def ArchPort.x8664 : ArchPort where
  userAddressMax := 0x0000800000000000
  invalidateIsBroadcast := false
  accepts flags := flags.readable
  walk va := [va / 2 ^ 39 % 512 * 3, va / 2 ^ 30 % 512 ^ 2 * 3 + 1, va / 2 ^ 21 % 512 ^ 3 * 3 + 2]
  owned key := key / 3 / 512 ^ (key % 3) < 256

/-- The range lies in the lower half of the address range or in the upper one. -/
def ArchPort.Canonical (port : ArchPort) (base len : Nat) : Prop :=
  base + len ≤ port.userAddressMax ∨ 2 ^ 64 - port.userAddressMax ≤ base ∧ base + len ≤ 2 ^ 64

instance (port : ArchPort) (base len : Nat) : Decidable (port.Canonical base len) :=
  inferInstanceAs (Decidable (_ ∨ _ ∧ _))

structure ArchSpace where
  root : PhysFrame
  tables : List (Nat × PhysFrame)
  pages : Nat → Option (PhysFrame × PageFlags)

namespace ArchSpace
variable {σ : Type} [FrameSource σ] (port : ArchPort)

def bare : ArchSpace := ⟨⟨0, rfl⟩, [], fun _ => none⟩

section
variable (a : ArchSpace) (va : Nat)

def new (source : σ) : Except KError ArchSpace × σ :=
  match allocFrame source with
  | (.none, source) => (.error .outOfMemory, source)
  | (.some root, source) => (.ok ⟨root, [], fun _ => .none⟩, source)

def drawTables (a : ArchSpace) (source : σ) : List Nat → Except KError Unit × ArchSpace × σ
  | [] => (.ok (), a, source)
  | key :: rest =>
    if a.tables.any (·.1 == key) then a.drawTables source rest
    else
      match allocFrame source with
      | (.none, source) => (.error .outOfMemory, a, source)
      | (.some frame, source) => { a with tables := (key, frame) :: a.tables }.drawTables source rest

def map (frame : PhysFrame) (flags : PageFlags) (source : σ) : Except KError Unit × ArchSpace × σ :=
  if flags.isWx then (.error .wxViolation, a, source)
  else if !port.accepts flags then (.error .invalidMapping, a, source)
  else if va % frameSize ≠ 0 then (.error .unaligned, a, source)
  else
    match a.drawTables source (port.walk va) with
    | (.error e, a, source) => (.error e, a, source)
    | (.ok (), a, source) =>
      match a.pages (va / frameSize) with
      | .some _ => (.error .alreadyMapped, a, source)
      | .none =>
        (.ok (), { a with pages := update a.pages (va / frameSize) (.some (frame, flags)) }, source)

def translate : Option (PhysFrame × PageFlags) := a.pages (va / frameSize)

def unmap : Except KError PhysFrame × ArchSpace :=
  match a.translate va with
  | .none => (.error .notMapped, a)
  | .some (frame, _) => (.ok frame, { a with pages := update a.pages (va / frameSize) .none })

def protect (flags : PageFlags) : Except KError Unit × ArchSpace :=
  if flags.isWx then (.error .wxViolation, a)
  else if !port.accepts flags then (.error .invalidMapping, a)
  else
    match a.translate va with
    | .none => (.error .notMapped, a)
    | .some (frame, _) =>
      (.ok (), { a with pages := update a.pages (va / frameSize) (.some (frame, flags)) })

def freeTables (source : σ) : σ :=
  freeFrame
    ((a.tables.filter (port.owned ·.1)).foldl (fun source t => freeFrame source t.2) source) a.root

end

end ArchSpace

@[simp] theorem alignDown_div (a : Nat) : alignDown a / frameSize = a / frameSize := by
  simp only [alignDown, frameSize]
  omega

namespace ArchSpace
variable {σ : Type} [FrameSource σ] {port : ArchPort}

theorem drawTables_pages (a : ArchSpace) (src : σ) (keys : List Nat) :
    (a.drawTables src keys).2.1.pages = a.pages := by
  induction keys generalizing a src with
  | nil => rfl
  | cons key rest ih =>
    unfold drawTables
    split
    · exact ih _ _
    split
    · rfl
    · exact ih _ _

variable {a b : ArchSpace} {src src' : σ} {va : Nat} {frame : PhysFrame} {flags : PageFlags}
  {result : Except KError Unit}

theorem map_cases (done : a.map port va frame flags src = (result, b, src')) :
    (result = .ok () ∧ a.translate va = none ∧ va % frameSize = 0 ∧ flags.isWx = false ∧
      b.pages = update a.pages (va / frameSize) (some (frame, flags))) ∨
    ((∃ e, result = .error e) ∧ b.pages = a.pages) := by
  unfold map at done
  split at done
  · cases done
    exact .inr ⟨⟨_,rfl⟩,rfl⟩
  rename_i plain
  split at done
  · cases done
    exact .inr ⟨⟨_,rfl⟩,rfl⟩
  split at done
  · cases done
    exact .inr ⟨⟨_,rfl⟩,rfl⟩
  rename_i aligned
  have pages := drawTables_pages a src (port.walk va)
  split at done
  · rename_i walked
    cases done
    rw [walked] at pages
    exact .inr ⟨⟨_,rfl⟩,pages⟩
  rename_i b' _ walked
  rw [walked] at pages
  have same : b'.pages = a.pages := pages
  split at done
  · cases done
    exact .inr ⟨⟨_,rfl⟩,same⟩
  rename_i vacant
  cases done
  refine .inl ⟨rfl,?_,not_not.mp aligned,by simpa using plain,?_⟩
  · rw [translate, ← same]
    exact vacant
  · simp [same]

theorem unmap_pages (a : ArchSpace) (va p : Nat) :
    (a.unmap va).2.pages p = if p = va / frameSize then none else a.pages p := by
  unfold unmap
  split
  · rename_i vacant
    split
    · rename_i same
      subst same
      exact vacant
    · rfl
  · simp [update_apply]

theorem unmap_error (done : a.unmap va = (.error e, b)) : b = a := by
  unfold unmap at done
  split at done
  · cases done
    rfl
  · cases done

theorem unmap_ok (done : a.unmap va = (.ok frame, b)) : ∃ flags, a.translate va = some (frame, flags) := by
  unfold unmap at done
  split at done
  · cases done
  rename_i flags there
  cases done
  exact ⟨flags,there⟩

theorem protect_pages (done : a.protect port va flags = (result, b)) :
    (result = .ok () ∧ flags.isWx = false ∧ ∃ frame old, a.translate va = some (frame, old) ∧
      b.pages = update a.pages (va / frameSize) (some (frame, flags))) ∨ ((∃ e, result = .error e) ∧ b = a) := by
  unfold protect at done
  split at done
  · cases done
    exact .inr ⟨⟨_,rfl⟩,rfl⟩
  rename_i plain
  split at done
  · cases done
    exact .inr ⟨⟨_,rfl⟩,rfl⟩
  split at done
  · cases done
    exact .inr ⟨⟨_,rfl⟩,rfl⟩
  rename_i frame old there
  cases done
  exact .inl ⟨rfl,by simpa using plain,frame,old,there,rfl⟩

theorem pages_of_unmap {a b : ArchSpace} {va : Nat} {result : Except KError PhysFrame}
    (done : a.unmap va = (result, b)) (p : Nat) : b.pages p = if p = va / frameSize then none else a.pages p := by
  rw [← unmap_pages, done]

theorem unmap_tables (a : ArchSpace) (va : Nat) :
    (a.unmap va).2.tables = a.tables ∧ (a.unmap va).2.root = a.root := by
  unfold unmap
  split <;> exact ⟨rfl,rfl⟩

theorem protect_tables (done : a.protect port va flags = (result, b)) : b.tables = a.tables ∧ b.root = a.root := by
  unfold protect at done
  split at done
  · cases done
    exact ⟨rfl,rfl⟩
  split at done
  · cases done
    exact ⟨rfl,rfl⟩
  split at done <;> cases done <;> exact ⟨rfl,rfl⟩

end ArchSpace
end Tessera
