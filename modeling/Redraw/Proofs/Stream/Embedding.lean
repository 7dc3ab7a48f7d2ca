import Redraw.Proofs.Snapshot.RoundTrip
import Redraw.Stream.Sink

/-!
# States among other things in one stream

A stream may hold states and blobs of arbitrary bytes in any order, written one after the other.
Someone who knows what comes next, a state or a blob of known length, reads all of them back:
nothing of a state is left behind it, and nothing of what follows is taken with it.
-/

namespace Redraw

namespace Sink

/-- A sink without a limit takes all pieces. -/
theorem writeAll_of_room_none (pieces : List Bytes) (written : Bytes) (refusal : IoFault) :
    writeAll pieces ⟨written, none, refusal⟩ =
      (.ok (), ⟨written ++ pieces.flatten, none, refusal⟩) := by
  induction pieces generalizing written with
  | nil => rw [writeAll, List.flatten_nil, List.append_nil]
  | cons piece pieces ih =>
    rw [List.flatten_cons, ← List.append_assoc, ← ih]
    rfl

end Sink

namespace Reading

/-- Up to `n` bytes off the front of chunks, and the chunks left; fewer when the input ends. -/
def splitChunks (ending : Ending) (n : Nat) : List Bytes → Except Fault Bytes × List Bytes
  | [] =>
    if n = 0 then (.ok [], [])
    else match ending with
      | .closed => (.ok [], [])
      | .failed fault => (.error (.io fault), [])
  | chunk :: chunks =>
    if n ≤ chunk.length then (.ok (chunk.take n), chunk.drop n :: chunks)
    else match splitChunks ending (n - chunk.length) chunks with
      | (.ok bytes, left) => (.ok (chunk ++ bytes), left)
      | (.error fault, left) => (.error fault, left)

/-- Reads up to `n` bytes. -/
def upTo (n : Nat) : Reading Bytes := fun input =>
  let (result, chunks) := splitChunks input.ending n input.chunks
  (result, { input with chunks := chunks })

/-- Where there are enough bytes, exactly as many are taken, over any number of chunks. -/
theorem splitChunks_of_le (ending : Ending) {n : Nat} {chunks : List Bytes}
    (h : n ≤ chunks.flatten.length) :
    ∃ left, splitChunks ending n chunks = (.ok (chunks.flatten.take n), left) ∧
      left.flatten = chunks.flatten.drop n := by
  induction chunks generalizing n with
  | nil =>
    obtain rfl : n = 0 := Nat.le_zero.mp h
    exact ⟨[], rfl, rfl⟩
  | cons chunk chunks ih =>
    rw [List.flatten_cons, List.length_append] at h
    rw [splitChunks, List.flatten_cons, List.take_append, List.drop_append]
    by_cases hfit : n ≤ chunk.length
    · rw [if_pos hfit, Nat.sub_eq_zero_of_le hfit, List.take_zero, List.append_nil]
      exact ⟨_, rfl, rfl⟩
    · obtain ⟨left, hsplit, hleft⟩ := ih (n := n - chunk.length) (by omega)
      have htake : chunk.take n = chunk := List.take_of_length_le (by omega)
      have hdrop : chunk.drop n = [] := List.drop_of_length_le (by omega)
      rw [if_neg hfit, hsplit, htake, hdrop]
      exact ⟨left, rfl, hleft⟩

theorem takes_upTo (blob : Bytes) : Takes (upTo blob.length) blob blob := by
  intro input more hrest
  have hflat : input.chunks.flatten = blob ++ more := hrest
  have hlength : blob.length ≤ input.chunks.flatten.length := by
    rw [hflat, List.length_append]
    omega
  obtain ⟨chunks, hsplit, hleft⟩ := splitChunks_of_le input.ending hlength
  rw [hflat, List.take_left] at hsplit
  rw [hflat, List.drop_left] at hleft
  refine ⟨{ input with chunks := chunks }, ?_, hleft, rfl⟩
  change upTo blob.length input = _
  rw [upTo, hsplit]

end Reading

/-- What one writer puts into a stream. -/
inductive Item where
  /-- The state of a generator. -/
  | state (snapshot : Snapshot)
  /-- Bytes of any kind. -/
  | blob (bytes : Bytes)
  deriving DecidableEq, Repr

namespace Item

/-- What the reader of an item has to know of it. -/
inductive Shape where
  /-- There is a state. -/
  | state
  /-- There are as many bytes. -/
  | blob (length : Nat)
  deriving DecidableEq, Repr

/-- What is to be known of an item. -/
def shape : Item → Shape
  | state _ => .state
  | blob bytes => .blob bytes.length

/-- A state is complete when it has as many words as a block holds. -/
def Complete : Item → Prop
  | state snapshot => snapshot.words.length = blockSize
  | blob _ => True

/-- The pieces in which an item is written. -/
def pieces : Item → List Bytes
  | state snapshot => snapshot.pieces
  | blob bytes => [bytes]

/-- Reads an item of a shape. -/
def read : Shape → Reading Item
  | .state => return .state (← Snapshot.decode)
  | .blob length => return .blob (← Reading.upTo length)

/-- Reads items of the given shapes, one after the other. -/
def readAll : List Shape → Reading (List Item)
  | [] => return []
  | shape :: shapes => do
    let item ← read shape
    let items ← readAll shapes
    return item :: items

/-- A complete item is taken with exactly what was written of it. -/
theorem takes_read {item : Item} (h : item.Complete) :
    Reading.Takes (read item.shape) item.pieces.flatten item := by
  cases item with
  | state snapshot =>
    rw [pieces, ← List.append_nil (List.flatten _)]
    exact (Snapshot.takes_decode h).bind (Reading.takes_pure _)
  | blob bytes =>
    exact (Reading.takes_upTo bytes).bind (Reading.takes_pure _)

/-- Items that were written one after the other are taken one after the other. -/
theorem takes_readAll {items : List Item} (h : ∀ item ∈ items, item.Complete) :
    Reading.Takes (readAll (items.map shape)) (items.flatMap pieces).flatten items := by
  induction items with
  | nil => exact Reading.takes_pure []
  | cons item items ih =>
    rw [List.flatMap_cons, List.flatten_append, ← List.append_nil (items.flatMap pieces).flatten]
    refine (takes_read (h item List.mem_cons_self)).bind ?_
    exact (ih fun item' h' => h item' (List.mem_cons_of_mem _ h')).bind (Reading.takes_pure _)

/-- Complete items that were written into one stream are read back from it, each from exactly the
bytes that were written of it, and a state by itself leaves whatever follows it. -/
theorem takes_readAll_written {items : List Item} (h : ∀ item ∈ items, item.Complete) :
    ∃ stream, Sink.writeAll (items.flatMap pieces) {} = (.ok (), { written := stream }) ∧
      Reading.Takes (readAll (items.map shape)) stream items ∧
      ∀ snapshot, .state snapshot ∈ items →
        Reading.Takes Snapshot.decode snapshot.encode snapshot := by
  refine ⟨(items.flatMap pieces).flatten, ?_, takes_readAll h, fun snapshot hs => ?_⟩
  · simpa only [List.nil_append] using
      Sink.writeAll_of_room_none (items.flatMap pieces) [] .writeZero
  · exact Snapshot.takes_decode (h _ hs)

/-- A state of zeros between blobs that look like parts of one. -/
def mixed : List Item :=
  [.blob (Bytes.ofText "7 "), .state ⟨5, 0xFFFFFFFFFFFFFFFF, List.replicate blockSize 0⟩,
    .blob (Bytes.ofText " 9\nendrandom-v2 ")]

/-- The state is found between the blobs, and the blobs round it. -/
theorem takes_readAll_mixed :
    (∀ item ∈ mixed, item.Complete) ∧
      ∃ stream, Sink.writeAll (mixed.flatMap pieces) {} = (.ok (), { written := stream }) ∧
        Reading.Takes (readAll (mixed.map shape)) stream mixed ∧
        ∀ snapshot, .state snapshot ∈ mixed →
          Reading.Takes Snapshot.decode snapshot.encode snapshot := by
  have h : ∀ item ∈ mixed, item.Complete := by simp [mixed, Complete]
  exact ⟨h, takes_readAll_written h⟩

end Item

end Redraw
