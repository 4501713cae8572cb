import DatagramStream.Bytes
import DatagramStream.Error

/-! The byte streams of an application: what it types, and what it is shown. -/

namespace DatagramStream

structure Input where
  typed : Bytes := []
  ended : Bool := false
  bufferSize : Nat := 0
  buffered : Bytes := []
  faults : List (Option IoError) := []

namespace Input

def readable (i : Input) : Bool :=
  !i.typed.isEmpty || i.ended

/-- Take up to `limit` bytes: out of the buffer, which is filled only when it is empty, and past it
where it would be too small. -/
def take (limit : Nat) (i : Input) : Bytes × Input :=
  if i.buffered.isEmpty ∧ i.bufferSize ≤ limit then
    (i.typed.take limit, { i with typed := i.typed.drop limit })
  else
    let filled :=
      if i.buffered.isEmpty then
        { i with buffered := i.typed.take i.bufferSize, typed := i.typed.drop i.bufferSize }
      else i
    (filled.buffered.take limit, { filled with buffered := filled.buffered.drop limit })

def read (limit : Nat) (i : Input) : Except IoError Bytes × Input :=
  go i.faults
where
  go : List (Option IoError) → Except IoError Bytes × Input
    | some e :: faults =>
      if e.kind = .interrupted then go faults else (.error e, { i with faults := faults })
    | none :: faults => succeed faults
    | [] => succeed []
  succeed (faults : List (Option IoError)) : Except IoError Bytes × Input :=
    let (data, i) := i.take limit
    (.ok data, { i with faults := faults })

end Input

structure Output where
  shown : Bytes := []
  flushes : Nat := 0
  writeFaults : List (Option IoError) := []
  flushFaults : List (Option IoError) := []

namespace Output

def append (data : Bytes) (o : Output) : Except IoError Unit × Output :=
  if data.isEmpty then (.ok (), o) else go o.writeFaults
where
  go : List (Option IoError) → Except IoError Unit × Output
    | some e :: faults =>
      if e.kind = .interrupted then go faults else (.error e, { o with writeFaults := faults })
    | none :: faults => (.ok (), { o with shown := o.shown ++ data, writeFaults := faults })
    | [] => (.ok (), { o with shown := o.shown ++ data, writeFaults := [] })

def flush (o : Output) : Except IoError Unit × Output :=
  let o := { o with flushes := o.flushes + 1 }
  match o.flushFaults with
  | [] => (.ok (), o)
  | none :: faults => (.ok (), { o with flushFaults := faults })
  | some e :: faults => (.error e, { o with flushFaults := faults })

def write (data : Bytes) (o : Output) : Except IoError Unit × Output :=
  match o.append data with
  | (.ok (), o) => o.flush
  | failed => failed

end Output

end DatagramStream
