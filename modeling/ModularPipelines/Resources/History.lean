import ModularPipelines.Library.JsonText

namespace ModularPipelines.Resources

open Library

/-- How samples are written to text and read back; a document with no text raises. -/
structure Encoding where
  dumps : Json → Option String
  loads : String → Option Json
  loads_dumps : ∀ sample text, dumps sample = some text → loads text = some sample
  getsizeof : String → Nat

def Encoding.compact : Encoding where
  dumps sample := some sample.dumps
  loads := Json.loads
  loads_dumps sample _ h := Option.some.inj h ▸ Json.loads_dumps sample
  getsizeof text := text.utf8ByteSize + 33

instance : Inhabited Encoding := ⟨.compact⟩

/-- The settings of the history: `expired entry now` compares an entry's time with the retention seconds. -/
structure CollectorSettings (Clock : Type) where
  expired : Clock → Clock → Bool
  maxBufferBytes : Nat

variable {Clock : Type}

def CollectorSettings.pageBytes (settings : CollectorSettings Clock) : Nat := min settings.maxBufferBytes 1048576

structure Entry (Clock : Type) where
  time : Clock
  cursor : Int
  encoded : String
  size : Nat

structure ResourceHistory (Clock : Type) where
  entries : List (Entry Clock)
  bytes : Int
  sequence : Int
  evicted : Nat
  historyId : String

inductive HistoryError where
  | value (text : String)
  | decoding

structure ResourcePage where
  samples : List Json
  cursor : Int
  historyId : String
  gap : Bool
  oldestCursor : Int
  evictedSamples : Nat
  bufferBytes : Int

def cursorOf (sample : Json) : Option Int :=
  match sample.get? "cursor" with
  | some (.int n) => some n
  | _ => none

/-- The sample under its cursor. -/
def stamped (sample : List (String × Json)) (cursor : Int) : Json := .obj (Json.setMember "cursor" (.int cursor) sample)

namespace ResourceHistory

def new (historyId : String) : ResourceHistory Clock where
  entries := []
  bytes := 0
  sequence := 0
  evicted := 0
  historyId := historyId

section

variable (e : Encoding) (settings : CollectorSettings Clock)

def pruneEntries (now : Clock) (h : ResourceHistory Clock) : List (Entry Clock) → ResourceHistory Clock
  | [] => { h with entries := [] }
  | entry :: rest =>
    if settings.expired entry.time now ∨ h.bytes > settings.maxBufferBytes then
      pruneEntries now { h with bytes := h.bytes - entry.size, evicted := h.evicted + 1 } rest
    else { h with entries := entry :: rest }

def prune (h : ResourceHistory Clock) (now : Clock) : ResourceHistory Clock := pruneEntries settings now h h.entries

/-- A sample without a text raises after its cursor is taken. -/
def append (h : ResourceHistory Clock) (sample : List (String × Json)) (now : Clock) : ResourceHistory Clock :=
  let h := { h with sequence := h.sequence + 1 }
  match e.dumps (stamped sample h.sequence) with
  | none => h
  | some encoded =>
    if encoded.utf8ByteSize > settings.pageBytes then
      prune settings { h with evicted := h.evicted + 1 } now
    else
      let size := e.getsizeof encoded + 256
      let entry := { time := now, cursor := h.sequence, encoded := encoded, size := size }
      prune settings { h with entries := h.entries ++ [entry], bytes := h.bytes + size } now

def takePage (after limit : Int) : List (Entry Clock) → List Json → Nat → Option (List Json)
  | [], samples, _ => some samples
  | entry :: rest, samples, bytes =>
    if entry.cursor ≤ after then takePage after limit rest samples bytes
    else if samples ≠ [] ∧ bytes + entry.encoded.utf8ByteSize > settings.pageBytes then some samples
    else
      match e.loads entry.encoded with
      | none => none
      | some sample =>
        if ((samples ++ [sample]).length : Int) = limit then some (samples ++ [sample])
        else takePage after limit rest (samples ++ [sample]) (bytes + entry.encoded.utf8ByteSize)

/-- Whether a sample does not follow the one before it. -/
def skips (previous : Int) (gap : Bool) : List Json → Option Bool
  | [] => some gap
  | sample :: rest =>
    match cursorOf sample with
    | none => none
    | some cursor => skips cursor (gap || cursor != previous + 1) rest

def lastCursor (h : ResourceHistory Clock) (samples : List Json) : Option Int :=
  match samples.getLast? with
  | none => some h.sequence
  | some sample => cursorOf sample

def oldest (h : ResourceHistory Clock) : Int :=
  match h.entries with
  | [] => h.sequence + 1
  | entry :: _ => entry.cursor

def page (h : ResourceHistory Clock) (after limit : Int) : Option ResourcePage := do
  let samples ← takePage e settings after limit h.entries [] 0
  let gap ← skips after (decide (after < h.oldest - 1 ∨ after > h.sequence)) samples
  let cursor ← h.lastCursor samples
  return {
    samples := samples
    cursor := cursor
    historyId := h.historyId
    gap := gap || (samples.isEmpty && decide (h.sequence > after))
    oldestCursor := h.oldest
    evictedSamples := h.evicted
    bufferBytes := h.bytes }

def read (h : ResourceHistory Clock) (after limit : Int) (now : Clock) :
    Except HistoryError ResourcePage × ResourceHistory Clock :=
  if after < 0 then (.error (.value "after must be a nonnegative integer."), h)
  else if ¬ (1 ≤ limit ∧ limit ≤ 1000) then (.error (.value "limit must be between 1 and 1000."), h)
  else
    let h := prune settings h now
    match page e settings h after limit with
    | none => (.error .decoding, h)
    | some page => (.ok page, h)

end

end ResourceHistory

/-- What happens to a history: a sample comes, some reader reads, or the client asks for its next page. -/
inductive Operation (Clock : Type) where
  | append (sample : List (String × Json)) (now : Clock)
  | read (after limit : Int) (now : Clock)
  | poll (limit : Int) (now : Clock)

/-- A history with its client, and the samples that were offered to it. -/
structure Session (Clock : Type) where
  history : ResourceHistory Clock
  cursor : Int
  received : List Json
  offered : List (List (String × Json))

namespace Session

variable (e : Encoding) (settings : CollectorSettings Clock)

def start (historyId : String) : Session Clock where
  history := .new historyId
  cursor := 0
  received := []
  offered := []

def poll (s : Session Clock) (limit : Int) (now : Clock) : Session Clock :=
  let (answer, history) := s.history.read e settings s.cursor limit now
  match answer with
  | .error _ => { s with history := history }
  | .ok page => { s with history := history, cursor := page.cursor, received := s.received ++ page.samples }

def step (s : Session Clock) : Operation Clock → Session Clock
  | .append sample now =>
    { s with history := s.history.append e settings sample now, offered := s.offered ++ [sample] }
  | .read after limit now => { s with history := (s.history.read e settings after limit now).2 }
  | .poll limit now => s.poll e settings limit now

def run (historyId : String) (operations : List (Operation Clock)) : Session Clock :=
  operations.foldl (step e settings) (start historyId)

/-- Polls one after the other, with nothing else in between. -/
def polls (asked : Nat → Int × Clock) (s : Session Clock) : Nat → Session Clock
  | 0 => s
  | n + 1 => polls (fun k => asked (k + 1)) (s.poll e settings (asked 0).1 (asked 0).2) n

/-- The positions of the history: its start, and the cursor of every sample offered to it. -/
def Position (s : Session Clock) (cursor : Int) : Prop := 0 ≤ cursor ∧ cursor ≤ s.offered.length

end Session

end ModularPipelines.Resources
