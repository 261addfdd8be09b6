import Mathlib.Algebra.Group.Nat.Defs
import Mathlib.Data.List.Infix

/-!
The verified image store of `api/image-store`: how a container is parsed, mounted against
a trust anchor and read. The measurement and the verification of a signature are given,
and so is the bound on what the target can address. What a mounted store says of a name
comes from the bytes that the anchor measures; what it hands out is measured again.
-/
namespace Tessera.ImageStore
open List Except

abbrev Bytes := List UInt8

inductive WireError where
  | shortBuffer | trailingBytes | badEnum | nonCanonicalPadding
  deriving DecidableEq

inductive StoreError where
  | badMagic | unsupportedFormat | unsupportedAlgorithm | truncated | malformed
  | untrustedAnchor | notFound | digestMismatch | unsigned | badSignature
  deriving DecidableEq

inductive DigestAlgorithm where
  | unspecified | sha256
  deriving DecidableEq

def magic : Nat := 0x45524f5453534554
def formatVersion : Nat := 3
def headerSize : Nat := 64
def entrySize : Nat := 104
def maxName : Nat := 24
def signatureLen : Nat := 64

/-- A cursor: the bytes not yet consumed. -/
abbrev Reader := StateT Bytes (Except WireError)

def take (n : Nat) : Reader Bytes := fun rest =>
  if n ≤ rest.length then .ok (rest.take n, rest.drop n) else .error .shortBuffer

def fromLe (bytes : Bytes) : Nat := bytes.foldr (fun low high => low.toNat + 256 * high) 0

def readUint (width : Nat) : Reader Nat := return fromLe (← take width)

def expectZeros (n : Nat) : Reader Unit := do
  if (← take n).any (· != 0) then throw .nonCanonicalPadding

def decode {α : Type} (reader : Reader α) (bytes : Bytes) : Except WireError α :=
  match reader bytes with
  | .error e => .error e
  | .ok (value, []) => .ok value
  | .ok (_, _ :: _) => .error .trailingBytes

def DigestAlgorithm.decode : Reader DigestAlgorithm := do
  match ← readUint 4 with
  | 0 => return .unspecified
  | 1 => return .sha256
  | _ => throw .badEnum

structure StoreHeader where
  size : Nat
  version : Nat
  flags : Nat
  magic : Nat
  algorithm : DigestAlgorithm
  anchorId : Nat
  entryCount : Nat
  reserved : Nat
  directoryOffset : Nat
  totalLength : Nat
  signatureOffset : Nat
  deriving DecidableEq

def StoreHeader.decode : Reader StoreHeader := do
  return ⟨← readUint 4, ← readUint 4, ← readUint 8, ← readUint 8, ← DigestAlgorithm.decode, ← readUint 4, ← readUint 4,
    ← readUint 4, ← readUint 8, ← readUint 8, ← readUint 8⟩

structure StoreEntry where
  size : Nat
  version : Nat
  flags : Nat
  offset : Nat
  length : Nat
  name : Bytes
  svn : Nat
  imageVersion : Nat
  reserved : Nat
  digest : Bytes

def StoreEntry.decode : Reader StoreEntry := do
  let raw : StoreEntry := ⟨← readUint 4, ← readUint 4, ← readUint 8, ← readUint 8, ← readUint 8, ← take maxName,
    ← readUint 4, ← readUint 4, ← readUint 4, ← take 32⟩
  expectZeros 4
  return raw

structure Entry where
  paddedName : Bytes
  nameLen : Nat
  offset : Nat
  length : Nat
  svn : Nat
  imageVersion : Nat
  flags : Nat
  digest : Bytes
  deriving DecidableEq

def Entry.name (entry : Entry) : Bytes := entry.paddedName.take entry.nameLen

inductive Trust where
  | digest (expected : Bytes)
  | key (publicKey : Bytes)
  deriving DecidableEq

structure Anchor where
  id : Nat
  trust : Trust
  deriving DecidableEq

structure Blob where
  bytes : Bytes
  svn : Nat
  imageVersion : Nat
  flags : Nat
  digest : Bytes
  deriving DecidableEq

structure Store where
  bytes : Bytes
  header : StoreHeader
  anchor : Bytes
  deriving DecidableEq

def require (c : Prop) [Decidable c] (e : StoreError) : Except StoreError Unit := if c then .ok () else .error e

def isAsciiGraphic (b : UInt8) : Bool := decide (0x21 ≤ b ∧ b ≤ 0x7e)

/-- The bytes before the padding, which are to be printable and the padding all NUL. -/
def nameLength (name : Bytes) : Except StoreError Nat := do
  let len := name.findIdx (· == 0)
  require (len ≠ 0) .malformed
  require ((name.take len).all isAsciiGraphic) .malformed
  require ((name.drop len).all (· == 0)) .malformed
  return len

section Reading
variable (usize : Nat)

def checked (n : Nat) (e : StoreError) : Except StoreError Nat := if n < usize then .ok n else .error e

def asUsize (value : Nat) : Except StoreError Nat := checked usize value .truncated

def slice (bytes : Bytes) (start len : Nat) : Bytes := (bytes.drop start).take len

def readEntry (region : Bytes) (start : Nat) : Except StoreError Entry := do
  let stop ← checked usize (start + entrySize) .malformed
  require (stop ≤ region.length) .malformed
  let raw ← (decode StoreEntry.decode (slice region start entrySize)).mapError fun _ => .malformed
  require (raw.size = entrySize ∧ raw.version = formatVersion) .unsupportedFormat
  require (raw.reserved = 0) .malformed
  let nameLen ← nameLength raw.name
  return ⟨raw.name, nameLen, raw.offset, raw.length, raw.svn, raw.imageVersion, raw.flags, raw.digest⟩

/-- Every entry lies behind the directory and inside the container, under a name after the last. -/
def checkEntries (region : Bytes) (directory directoryEnd total : Nat) :
    List Nat → Option Bytes → Except StoreError Unit
  | [], _ => return
  | index :: rest, previous => do
    let entry ← readEntry usize region (directory + index * entrySize)
    let start ← asUsize usize entry.offset
    let len ← asUsize usize entry.length
    let stop ← checked usize (start + len) .malformed
    require (directoryEnd ≤ start ∧ stop ≤ total) .malformed
    require (∀ last ∈ previous, last < entry.paddedName) .malformed
    checkEntries region directory directoryEnd total rest (some entry.paddedName)

def readHeader (head : Bytes) : Except StoreError StoreHeader :=
  (decode StoreHeader.decode head).mapError fun
    | .badEnum => .unsupportedAlgorithm
    | _ => .malformed

def parse (region : Bytes) : Except StoreError (StoreHeader × Nat) := do
  require (headerSize ≤ region.length) .truncated
  require (fromLe (slice region 16 8) = magic) .badMagic
  let header ← readHeader (region.take headerSize)
  require (header.size = headerSize ∧ header.version = formatVersion) .unsupportedFormat
  require (header.algorithm = .sha256) .unsupportedAlgorithm
  require (header.reserved = 0) .malformed
  let total ← asUsize usize header.totalLength
  require (total ≤ region.length ∧ headerSize ≤ total) .truncated
  let directory ← asUsize usize header.directoryOffset
  require (headerSize ≤ directory) .malformed
  let span ← checked usize (header.entryCount * entrySize) .malformed
  let directoryEnd ← checked usize (directory + span) .malformed
  require (directoryEnd ≤ total) .malformed
  checkEntries usize region directory directoryEnd total (List.range header.entryCount) none
  return (header, directoryEnd)

variable (sha256 : Bytes → Bytes) (verify : Bytes → Bytes → Bytes → Bool)

/-- The container is what the anchor pins, or carries a signature under the anchor's key. -/
def authenticate (region : Bytes) (header : StoreHeader) (directoryEnd : Nat) (anchor : Bytes) :
    Trust → Except StoreError Unit
  | .digest expected => require (expected = anchor) .untrustedAnchor
  | .key publicKey => do
    let place ← asUsize usize header.signatureOffset
    require (place ≠ 0) .unsigned
    let stop ← checked usize (place + signatureLen) .malformed
    require (directoryEnd ≤ place ∧ stop ≤ region.length) .malformed
    require (verify publicKey anchor (slice region place signatureLen)) .badSignature

def trusted (anchors : List Anchor) (id : Nat) : Option Anchor := anchors.find? (·.id == id)

def mount (anchors : List Anchor) (region : Bytes) : Except StoreError Store := do
  let (header, directoryEnd) ← parse usize region
  let anchor := sha256 (region.take directoryEnd)
  let found ← ((trusted anchors header.anchorId).elim (.error .untrustedAnchor) .ok : Except StoreError Anchor)
  authenticate usize verify region header directoryEnd anchor found.trust
  let total ← asUsize usize header.totalLength
  return ⟨region.take total, header, anchor⟩

namespace Store

def entry (store : Store) (index : Nat) : Except StoreError Entry := do
  require (index < store.header.entryCount) .notFound
  let directory ← asUsize usize store.header.directoryOffset
  readEntry usize store.bytes (directory + index * entrySize)

def findIn (entry : Nat → Except StoreError Entry) (name : Bytes) : List Nat → Except StoreError Entry
  | [] => .error .notFound
  | index :: rest => do
    let entry' ← entry index
    if entry'.name = name then return entry' else findIn entry name rest

def find (store : Store) (name : Bytes) : Except StoreError Entry :=
  findIn (store.entry usize) name (List.range store.header.entryCount)

def open_ (store : Store) (name : Bytes) : Except StoreError Blob := do
  let entry ← store.find usize name
  let start ← asUsize usize entry.offset
  let len ← asUsize usize entry.length
  let stop ← checked usize (start + len) .malformed
  require (stop ≤ store.bytes.length) .malformed
  let bytes := slice store.bytes start len
  require (sha256 bytes = entry.digest) .digestMismatch
  return ⟨bytes, entry.svn, entry.imageVersion, entry.flags, sha256 bytes⟩

end Store
end Reading

/-- No part of the one region is measured like a different part of the other. -/
def CollisionFree (sha256 : Bytes → Bytes) (a b : Bytes) : Prop :=
  ∀ x y, x <:+: a → y <:+: b → sha256 x = sha256 y → x = y

section Inversion
variable {α β : Type} {usize n m : Nat} {e : StoreError} {bytes region : Bytes} {start len stop : Nat}

@[simp] theorem bind_eq_ok {f : α → Except StoreError β} : (x >>= f) = .ok b ↔ ∃ a, x = .ok a ∧ f a = .ok b := by
  cases x <;> simp [bind, Except.bind]

@[simp] theorem pure_eq_ok : (pure a : Except StoreError α) = .ok b ↔ a = b := by
  simp [pure, Except.pure]

@[simp] theorem require_eq_ok {c : Prop} [Decidable c] : require c e = .ok u ↔ c := by
  by_cases holds : c <;> simp [require]

@[simp] theorem checked_eq_ok : checked usize n e = .ok m ↔ n < usize ∧ n = m := by
  by_cases small : n < usize <;> simp [checked, small]

theorem bind_eq_error {f : α → Except StoreError β} :
    (x >>= f) = .error e ↔ x = .error e ∨ ∃ a, x = .ok a ∧ f a = .error e := by
  cases x <;> simp [bind, Except.bind]

theorem require_eq_error {c : Prop} [Decidable c] : require c e = .error e' ↔ ¬c ∧ e = e' := by
  by_cases holds : c <;> simp [require, holds]

theorem checked_eq_error : checked usize n e = .error e' ↔ usize ≤ n ∧ e = e' := by
  by_cases small : n < usize <;> simp [checked, small, Nat.not_le.mpr, Nat.not_lt.mp]

theorem slice_part (bytes : Bytes) (start len : Nat) : slice bytes start len <:+: bytes := by
  have front : slice bytes start len <+: bytes.drop start := take_prefix _ _
  have back : bytes.drop start <:+ bytes := drop_suffix _ _
  exact front.isInfix.trans back.isInfix

theorem slice_take (inside : start + len ≤ stop) : slice (bytes.take stop) start len = slice bytes start len := by
  rw [slice, slice, drop_take, take_take, Nat.min_eq_left (by omega)]

end Inversion

variable {usize : Nat} {sha256 : Bytes → Bytes} {verify : Bytes → Bytes → Bytes → Bool} {anchors : List Anchor}
  {region region₁ region₂ name : Bytes} {header header₁ header₂ : StoreHeader} {stop stop₁ stop₂ start : Nat}
  {store store₁ store₂ : Store} {anchor : Anchor} {expected : Bytes} {blob blob₁ blob₂ : Blob}

/-- What is known of a region that parses: its header is read from the front, and the directory
    follows it and ends inside the container. -/
structure Parsed (region : Bytes) (header : StoreHeader) (directoryEnd : Nat) : Prop where
  head : readHeader (region.take headerSize) = .ok header
  stop : directoryEnd = header.directoryOffset + header.entryCount * entrySize
  front : headerSize ≤ header.directoryOffset
  within : directoryEnd ≤ header.totalLength
  total : header.totalLength ≤ region.length

theorem parse_eq_ok (parsed : parse usize region = .ok (header, stop)) : Parsed region header stop := by
  simp only [parse, asUsize, bind_eq_ok, require_eq_ok, checked_eq_ok] at parsed
  obtain ⟨_,_,_,_,header',head,_,_,_,_,_,_,total,⟨_,rfl⟩,_,⟨fits,_⟩,directory,⟨_,rfl⟩,_,front,span,⟨_,rfl⟩,stop',⟨_,ends⟩,_,
    within,_,_,rfl,rfl⟩ := parsed
  exact ⟨head,ends.symm,front,within,fits⟩

theorem mount_pinned (mounted : mount usize sha256 verify anchors region = .ok store)
    (named : trusted anchors store.header.anchorId = some anchor) (pinned : anchor.trust = .digest expected) :
    ∃ stop, Parsed region store.header stop ∧ store.bytes = region.take store.header.totalLength ∧
      sha256 (region.take stop) = expected := by
  simp only [mount, asUsize, bind_eq_ok, checked_eq_ok, pure_eq_ok] at mounted
  obtain ⟨⟨_,stop⟩,parsed,_,chosen,_,authentic,_,⟨_,rfl⟩,rfl⟩ := mounted
  rw [named] at chosen
  cases chosen
  rw [pinned, authenticate, require_eq_ok] at authentic
  exact ⟨stop,parse_eq_ok parsed,rfl,authentic.symm⟩

theorem Parsed.same_header (parsed₁ : Parsed region₁ header₁ stop₁) (parsed₂ : Parsed region₂ header₂ stop₂)
    (same : region₁.take stop₁ = region₂.take stop₂) : header₁ = header₂ ∧ stop₁ = stop₂ := by
  have heads (region : Bytes) {header : StoreHeader} {stop : Nat} (parsed : Parsed region header stop) :
      (region.take stop).take headerSize = region.take headerSize := by
    have front := parsed.front
    have ends := parsed.stop
    rw [take_take, Nat.min_eq_left (by omega)]
  have headers : header₁ = header₂ := by
    have head := parsed₁.head
    rw [← heads region₁ parsed₁, same, heads region₂ parsed₂, parsed₂.head] at head
    exact (ok.inj head).symm
  subst headers
  exact ⟨rfl,parsed₁.stop.trans parsed₂.stop.symm⟩

theorem readEntry_same (first : start + entrySize ≤ region₁.length) (second : start + entrySize ≤ region₂.length)
    (same : slice region₁ start entrySize = slice region₂ start entrySize) :
    readEntry usize region₁ start = readEntry usize region₂ start := by
  unfold readEntry checked
  split
  · simp [bind, Except.bind, first, second, same]
  · rfl

theorem Parsed.entry_same (parsed₁ : Parsed region₁ header stop) (parsed₂ : Parsed region₂ header stop)
    (same : region₁.take stop = region₂.take stop) (anchor₁ anchor₂ : Bytes) (index : Nat) :
    Store.entry usize ⟨region₁.take header.totalLength, header, anchor₁⟩ index =
      Store.entry usize ⟨region₂.take header.totalLength, header, anchor₂⟩ index := by
  unfold Store.entry require asUsize checked
  by_cases listed : index < header.entryCount
  · by_cases small : header.directoryOffset < usize
    · simp only [listed, small]
      have ends := parsed₁.stop
      have within := parsed₁.within
      have total₁ := parsed₁.total
      have total₂ := parsed₂.total
      have inside : header.directoryOffset + index * entrySize + entrySize ≤ stop := by
        simp only [entrySize] at ends ⊢
        omega
      refine readEntry_same ?_ ?_ ?_
      · rw [length_take]
        omega
      · rw [length_take]
        omega
      · rw [slice_take (by omega), slice_take (by omega), ← slice_take inside, same, slice_take inside]
    · simp [small, bind, Except.bind]
  · simp [listed, bind, Except.bind]

theorem open_eq_ok (opened : store.open_ usize sha256 name = .ok blob) :
    ∃ entry, store.find usize name = .ok entry ∧ sha256 blob.bytes = entry.digest ∧ blob.bytes <:+: store.bytes ∧
      blob = ⟨blob.bytes, entry.svn, entry.imageVersion, entry.flags, entry.digest⟩ := by
  simp only [Store.open_, asUsize, bind_eq_ok, require_eq_ok, checked_eq_ok, pure_eq_ok] at opened
  obtain ⟨entry,found,_,⟨_,rfl⟩,_,⟨_,rfl⟩,_,_,_,_,_,measured,rfl⟩ := opened
  exact ⟨entry,found,measured,slice_part _ _ _,by rw [measured]⟩

theorem open_notFound_iff :
    store.open_ usize sha256 name = .error .notFound ↔ store.find usize name = .error .notFound := by
  simp only [Store.open_, asUsize, bind_eq_error, require_eq_error, checked_eq_error, pure, Except.pure]
  simp

/-- Two regions that mount under one pinned measurement find the same entry, or none, under every
    name; where both give out an image, it is the same image. -/
theorem stores_under_one_digest_agree {anchors₁ anchors₂ : List Anchor}
    (mounted₁ : mount usize sha256 verify anchors₁ region₁ = .ok store₁)
    (mounted₂ : mount usize sha256 verify anchors₂ region₂ = .ok store₂)
    (named₁ : trusted anchors₁ store₁.header.anchorId = some anchor)
    (named₂ : trusted anchors₂ store₂.header.anchorId = some anchor) (pinned : anchor.trust = .digest expected)
    (collisionFree : CollisionFree sha256 region₁ region₂) (name : Bytes) :
    store₁.find usize name = store₂.find usize name ∧
      (store₁.open_ usize sha256 name = .error .notFound ↔ store₂.open_ usize sha256 name = .error .notFound) ∧
      ∀ blob₁ blob₂, store₁.open_ usize sha256 name = .ok blob₁ → store₂.open_ usize sha256 name = .ok blob₂ →
        blob₁ = blob₂ := by
  obtain ⟨stop₁,parsed₁,bytes₁,anchor₁⟩ := mount_pinned mounted₁ named₁ pinned
  obtain ⟨stop₂,parsed₂,bytes₂,anchor₂⟩ := mount_pinned mounted₂ named₂ pinned
  have directory : region₁.take stop₁ = region₂.take stop₂ :=
    collisionFree _ _ (slice_part _ 0 _) (slice_part _ 0 _) (anchor₁.trans anchor₂.symm)
  have found : store₁.find usize name = store₂.find usize name := by
    obtain ⟨_,_,_⟩ := store₁
    obtain ⟨_,_,_⟩ := store₂
    dsimp only at bytes₁ bytes₂ parsed₁ parsed₂
    obtain ⟨rfl,rfl⟩ := parsed₁.same_header parsed₂ directory
    subst bytes₁ bytes₂
    unfold Store.find
    rw [funext (parsed₁.entry_same parsed₂ directory _ _)]
  refine ⟨found,by rw [open_notFound_iff, open_notFound_iff, found],fun blob₁ blob₂ opened₁ opened₂ => ?_⟩
  obtain ⟨_,here₁,measured₁,part₁,shape₁⟩ := open_eq_ok opened₁
  obtain ⟨_,here₂,measured₂,part₂,shape₂⟩ := open_eq_ok opened₂
  rw [found, here₂] at here₁
  cases here₁
  rw [bytes₁] at part₁
  rw [bytes₂] at part₂
  have same : blob₁.bytes = blob₂.bytes :=
    collisionFree _ _ (part₁.trans (slice_part _ 0 _)) (part₂.trans (slice_part _ 0 _)) (measured₁.trans measured₂.symm)
  rw [shape₁, shape₂, same]

def toLe (width value : Nat) : Bytes := (List.range width).map fun i => UInt8.ofNat (value / 256 ^ i)

/-- A container with one image of 32 bytes. Measured by itself, it is its own digest. -/
def container : Bytes :=
  toLe 4 headerSize ++ toLe 4 formatVersion ++ toLe 8 0 ++ toLe 8 magic ++ toLe 4 1 ++ toLe 4 7 ++ toLe 4 1 ++ toLe 4 0 ++
    toLe 8 64 ++ toLe 8 200 ++ toLe 8 0 ++ toLe 4 entrySize ++ toLe 4 formatVersion ++ toLe 8 9 ++ toLe 8 168 ++
    toLe 8 32 ++ toLe maxName 0x6661 ++ toLe 4 2 ++ toLe 4 5 ++ toLe 4 0 ++ List.replicate 32 1 ++ toLe 4 0 ++
    List.replicate 32 1

def pins : List Anchor := [⟨7, .digest (container.take 168)⟩]

def altered : Bytes := container.take 199 ++ [2]

def storeOf (region : Bytes) : Store := ⟨region, ⟨64, 3, 0, magic, .sha256, 7, 1, 0, 64, 200, 0⟩, container.take 168⟩

/-- The altered container mounts and finds the same entry, and does not give out the image. -/
theorem altered_image_is_refused :
    (storeOf container).find (2 ^ 64) [0x61, 0x66] = (storeOf altered).find (2 ^ 64) [0x61, 0x66] ∧
      (storeOf altered).open_ (2 ^ 64) id [0x61, 0x66] = .error .digestMismatch := by
  have first : mount (2 ^ 64) id (fun _ _ _ => false) pins container = .ok (storeOf container) := by decide +kernel
  have second : mount (2 ^ 64) id (fun _ _ _ => false) pins altered = .ok (storeOf altered) := by decide +kernel
  refine ⟨(stores_under_one_digest_agree first second rfl rfl rfl (fun _ _ _ _ => id) _).1,?_⟩
  decide +kernel

def Store.byteLen (store : Store) : Nat := store.bytes.length

theorem checkEntries_take
    (fits : total ≤ region.length) (inside : ∀ i ∈ indices, directory + i * entrySize + entrySize ≤ total) :
    checkEntries usize (region.take total) directory directoryEnd total indices previous =
      checkEntries usize region directory directoryEnd total indices previous := by
  induction indices generalizing previous with
  | nil => rfl
  | cons i rest ih =>
    obtain ⟨here,later⟩ := forall_mem_cons.mp inside
    have same : readEntry usize (region.take total) (directory + i * entrySize) =
        readEntry usize region (directory + i * entrySize) :=
      readEntry_same (by rw [length_take]; omega) (by omega) (slice_take here)
    simp only [checkEntries, same, ih later]

theorem parse_take (parsed : parse usize region = .ok (header, stop)) :
    parse usize (region.take header.totalLength) = .ok (header, stop) := by
  simp only [parse, asUsize, bind_eq_ok, require_eq_ok, checked_eq_ok, pure_eq_ok, Prod.mk.injEq] at parsed ⊢
  obtain ⟨_,_,_,marked,header',head,_,format,_,algorithm,_,reserved,total,⟨small,rfl⟩,_,⟨fits,long⟩,directory,⟨near,rfl⟩,_,
    front,span,⟨short,rfl⟩,stop',⟨ends,rfl⟩,_,within,_,checked,rfl,rfl⟩ := parsed
  have length : (region.take header'.totalLength).length = header'.totalLength := by
    rw [length_take, Nat.min_eq_left fits]
  rw [length, slice_take (by simp only [headerSize] at long; omega), take_take, Nat.min_eq_left long]
  rw [← checkEntries_take fits fun i mem => by
    have := mem_range.mp mem
    simp only [entrySize] at within ⊢
    omega] at checked
  exact ⟨(),long,(),marked,header',head,(),format,(),algorithm,(),reserved,_,⟨small,rfl⟩,(),⟨Nat.le_refl _,long⟩,_,
    ⟨near,rfl⟩,(),front,_,⟨short,rfl⟩,_,⟨ends,rfl⟩,(),within,(),checked,rfl,rfl⟩

theorem mount_take (mounted : mount usize sha256 verify anchors region = .ok store)
    (inside : ∀ anchor ∈ trusted anchors store.header.anchorId, ∀ key, anchor.trust = .key key →
      store.header.signatureOffset + signatureLen ≤ store.byteLen) :
    mount usize sha256 verify anchors (region.take store.byteLen) = .ok store := by
  simp only [mount, asUsize, bind_eq_ok, checked_eq_ok, pure_eq_ok] at mounted ⊢
  obtain ⟨⟨header,stop⟩,parsed,found,chosen,_,authentic,_,⟨small,rfl⟩,rfl⟩ := mounted
  obtain ⟨_,_,_,within,fits⟩ := parse_eq_ok parsed
  have length : Store.byteLen ⟨region.take header.totalLength, header, sha256 (region.take stop)⟩ =
      header.totalLength := by
    rw [Store.byteLen, length_take, Nat.min_eq_left fits]
  rw [length] at inside ⊢
  have measured : (region.take header.totalLength).take stop = region.take stop := by
    rw [take_take, Nat.min_eq_left within]
  refine ⟨(header, stop),parse_take parsed,found,chosen,(),?_,_,⟨small,rfl⟩,by rw [take_take, Nat.min_self, measured]⟩
  dsimp only
  rw [measured]
  cases trust : found.trust with
  | digest => rwa [trust] at authentic
  | key publicKey =>
    have known : trusted anchors header.anchorId = some found := by
      cases there : trusted anchors header.anchorId with
      | none => rw [there] at chosen; cases chosen
      | some => rw [there] at chosen; cases chosen; rfl
    have room := inside found known publicKey trust
    rw [trust] at authentic
    simp only [authenticate, asUsize, bind_eq_ok, require_eq_ok, checked_eq_ok] at authentic ⊢
    obtain ⟨_,⟨near,rfl⟩,_,signed,_,⟨ends,rfl⟩,_,⟨behind,_⟩,_⟩ := authentic
    refine ⟨_,⟨near,rfl⟩,(),signed,_,⟨ends,rfl⟩,(),⟨behind,?_⟩,by rwa [slice_take room]⟩
    rw [length_take, Nat.min_eq_left fits]
    exact room

theorem signature_inside (mounted : mount usize sha256 verify anchors region = .ok store)
    (known : anchor ∈ trusted anchors store.header.anchorId) (trust : anchor.trust = .key key) :
    store.header.signatureOffset + signatureLen ≤ region.length := by
  simp only [mount, asUsize, bind_eq_ok, checked_eq_ok, pure_eq_ok] at mounted
  obtain ⟨⟨header,stop⟩,_,found,chosen,_,authentic,_,_,rfl⟩ := mounted
  rw [Option.mem_def.mp known] at chosen
  cases chosen
  rw [trust] at authentic
  simp only [authenticate, asUsize, bind_eq_ok, require_eq_ok, checked_eq_ok] at authentic
  obtain ⟨_,⟨_,rfl⟩,_,_,_,⟨_,rfl⟩,_,⟨_,ends⟩,_⟩ := authentic
  exact ends

/-- The bytes of a mounted store are enough to mount it, with the same entries and images, exactly if the
    signature that was verified, where one was, does not lie behind them. -/
theorem store_mounts_from_its_bytes_iff (mounted : mount usize sha256 verify anchors region = .ok store) :
    mount usize sha256 verify anchors (region.take store.byteLen) = .ok store ↔
      ∀ anchor ∈ trusted anchors store.header.anchorId, ∀ key, anchor.trust = .key key →
        store.header.signatureOffset + signatureLen ≤ store.byteLen := by
  constructor
  · intro again anchor known key trust
    exact Nat.le_trans (signature_inside again known trust) (length_take_le ..)
  · exact mount_take mounted

/-- A container of the given length with a signature after the image, at 200. -/
def signed (total : Nat) : Bytes :=
  container.take 48 ++ toLe 8 total ++ toLe 8 200 ++ container.drop 64 ++ replicate 64 1

def signedBy : List Anchor := [⟨7, .key []⟩]

def genuine (_ _ signature : Bytes) : Bool := signature == replicate 64 1

def signedStore (total : Nat) : Store :=
  ⟨(signed total).take total, ⟨64, 3, 0, magic, .sha256, 7, 1, 0, 64, total, 200⟩, (signed total).take 168⟩

theorem signed_store_mounts_from_its_bytes :
    mount (2 ^ 64) id genuine signedBy ((signed 264 ++ [5]).take (signedStore 264).byteLen) = .ok (signedStore 264) :=
  (store_mounts_from_its_bytes_iff (by decide +kernel)).mpr fun _ _ _ _ => by decide +kernel

/-- The signature is looked for in the whole region: one behind the container is accepted, and the
    bytes of the store do not have it. -/
theorem signature_behind_the_store_is_accepted :
    mount (2 ^ 64) id genuine signedBy (signed 200) = .ok (signedStore 200) ∧
      mount (2 ^ 64) id genuine signedBy ((signed 200).take (signedStore 200).byteLen) = .error .malformed := by
  decide +kernel

end Tessera.ImageStore
