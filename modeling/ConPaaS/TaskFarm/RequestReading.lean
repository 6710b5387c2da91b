import ConPaaS.TaskFarm.ThreadHandler
import Mathlib.Algebra.Group.Int.Defs
import Mathlib.Algebra.Order.Group.Nat
import Mathlib.Data.List.TakeWhile

namespace ConPaaS

/-- Bytes of a client that arrive together: prompt, when they are there by the
time the bytes before them are read, and otherwise after a pause. -/
structure Packet where
  bytes : List UInt8
  prompt : Bool
  filled : bytes ≠ []
  deriving DecidableEq

/-- A socket with bytes that have arrived and packets that are to come. Between
two of them the client pauses for less than the timeout, and after the last it
closes the connection or waits for the answer. -/
structure Socket where
  arrived : List UInt8
  coming : List Packet
  closes : Bool

/-- How a call of `read` ends. -/
inductive Arrival
  | bytes (read : List UInt8) (socket : Socket)
  | endOfFile
  | timeout

namespace Socket

/-- A reader without bytes waits for the next packet. -/
def next (socket : Socket) : Socket :=
  match socket.arrived, socket.coming with
  | [], packet :: coming => ⟨packet.bytes, coming, socket.closes⟩
  | _, _ => socket

/-- `InputStream.read`, with room for some bytes. -/
def read (socket : Socket) (len : Nat) : Arrival :=
  if socket.next.arrived = [] then if socket.closes then .endOfFile else .timeout
  else .bytes (socket.next.arrived.take len) ⟨socket.next.arrived.drop len, socket.next.coming, socket.closes⟩

/-- Whether `InputStream.available` is positive. -/
def available (socket : Socket) : Bool :=
  match socket.arrived, socket.coming with
  | [], [] => false
  | [], packet :: _ => packet.prompt
  | _ :: _, _ => true

/-- All bytes that are not read yet. -/
def pending (socket : Socket) : List UInt8 := socket.arrived ++ socket.coming.flatMap Packet.bytes

/-- The bytes that can be read without a pause, when there are some. -/
def burst (socket : Socket) : List UInt8 := socket.arrived ++ (socket.coming.takeWhile Packet.prompt).flatMap Packet.bytes

def afterBurst (socket : Socket) : Socket := ⟨[], socket.coming.dropWhile Packet.prompt, socket.closes⟩

end Socket

namespace ThreadHandler

/-- The size of the buffer when some of it is filled. It doubles when it is full;
the double of the last power of two is negative, for which an exception is
raised. -/
def reallocate (size filled : Nat) : Option Nat :=
  if filled = size then if 2 * size < 2 ^ 31 then some (2 * size) else none
  else some size

/-- The loop until no bytes are available, with the bytes read, the size of the
buffer and the socket after it, unless an exception is raised. -/
def readAvailable : Nat → Socket → List UInt8 → Nat → Option (List UInt8 × Nat × Socket)
  | 0, _, _, _ => none
  | fuel + 1, socket, buf, size =>
    match socket.read (size - buf.length) with
    | .timeout => none
    | .endOfFile => if socket.available then readAvailable fuel socket buf size else some (buf, size, socket)
    | .bytes read socket =>
      (reallocate size (buf.length + read.length)).bind fun size =>
        if socket.available then readAvailable fuel socket (buf ++ read) size else some (buf ++ read, size, socket)

/-- The loop to the end of the stream or the timeout. -/
def readToEnd : Nat → Socket → List UInt8 → Nat → Option (List UInt8)
  | 0, _, _, _ => none
  | fuel + 1, socket, buf, size =>
    match socket.read (size - buf.length) with
    | .timeout | .endOfFile => some buf
    | .bytes read socket =>
      (reallocate size (buf.length + read.length)).bind fun size => readToEnd fuel socket (buf ++ read) size

/-- `Integer.parseInt`, for digits of ASCII. -/
def parseInt (text : List Char) : Option Int :=
  let number (digits : List Char) : Option Int :=
    if digits ≠ [] ∧ digits.all Char.isDigit then some (Nat.ofDigitChars 10 digits 0) else none
  let value : Option Int :=
    match text with
    | '-' :: digits => (number digits).map Neg.neg
    | '+' :: digits => number digits
    | digits => number digits
  value.filter fun value => -2 ^ 31 ≤ value ∧ value < 2 ^ 31

/-- The content length a header gives, and 0 where it gives none. -/
def contentLength (header : List Char) : Int :=
  let i := ((indexOf "Content-Length: ".toList header).map (· + 16)).getD 15
  ((indexOfFrom "\r\n".toList header i).bind fun j => parseInt ((header.take j).drop i)).getD 0

/-- The first bytes are taken for the whole request. -/
def LooksWhole (charset : Charset) (headerBytes : List UInt8) : Prop :=
  contentLength (charset.decode headerBytes) ≤ headerBytes.length ∧
    indexOf "botFile".toList (charset.decode headerBytes) = none

instance (charset : Charset) (headerBytes : List UInt8) : Decidable (LooksWhole charset headerBytes) :=
  inferInstanceAs (Decidable (_ ∧ _))

/-- `transformToByteArray`. Each turn of its loops reads a byte at least. -/
def transformToByteArray (charset : Charset) (socket : Socket) : Option (List UInt8) :=
  (readAvailable (socket.pending.length + 1) socket [] 256).bind fun (headerBytes, size, socket) =>
    if LooksWhole charset headerBytes then some headerBytes
    else (readToEnd (socket.pending.length + 1) socket [] size).map fun buf => headerBytes ++ buf

end ThreadHandler

namespace Socket

variable (socket : Socket)

theorem next_next : socket.next.next = socket.next := by
  obtain ⟨arrived, coming, closes⟩ := socket
  cases arrived with
  | nil =>
    cases coming with
    | nil => rfl
    | cons packet coming =>
      obtain ⟨bytes, prompt, filled⟩ := packet
      cases bytes with
      | nil => exact absurd rfl filled
      | cons byte bytes => rfl
  | cons byte arrived => rfl

theorem next_closes : socket.next.closes = socket.closes := by
  obtain ⟨arrived, coming, closes⟩ := socket
  cases arrived <;> cases coming <;> rfl

theorem pending_next : socket.next.pending = socket.pending := by
  obtain ⟨arrived, coming, closes⟩ := socket
  cases arrived <;> cases coming <;> rfl

theorem next_of_arrived (some : socket.arrived ≠ []) : socket.next = socket := by
  obtain ⟨arrived, coming, closes⟩ := socket
  cases arrived with
  | nil => exact absurd rfl some
  | cons byte arrived => rfl

theorem read_next (len : Nat) : socket.next.read len = socket.read len := by
  simp only [read, next_next, next_closes]

theorem next_arrived_eq_nil : socket.next.arrived = [] ↔ socket.pending = [] := by
  obtain ⟨arrived, coming, closes⟩ := socket
  cases arrived with
  | nil =>
    cases coming with
    | nil => simp [next, pending]
    | cons packet coming => simp [next, pending, packet.filled]
  | cons byte arrived => simp [next, pending]

/-- What is read, and what is left. -/
theorem read_of_arrived (some : socket.arrived ≠ []) (len : Nat) :
    socket.read len = .bytes (socket.arrived.take len) ⟨socket.arrived.drop len, socket.coming, socket.closes⟩ := by
  rw [read, socket.next_of_arrived some, if_neg some]

/-- When bytes are available, the reader need not wait for the next ones. -/
theorem available_iff : socket.available = true ↔ socket.arrived ≠ [] ∨ ∃ packet rest, socket.coming = packet :: rest ∧ packet.prompt = true := by
  obtain ⟨arrived, coming, closes⟩ := socket
  cases arrived <;> cases coming <;> simp [available]

/-- A burst goes on with the next packet. -/
theorem burst_next (available : socket.available = true) :
    socket.next.burst = socket.burst ∧ socket.next.afterBurst = socket.afterBurst ∧ socket.next.arrived ≠ [] := by
  rcases socket.available_iff.mp available with some | ⟨packet, rest, coming, prompt⟩
  · rw [socket.next_of_arrived some]
    exact ⟨rfl, rfl, some⟩
  · obtain ⟨arrived, _, closes⟩ := socket
    cases coming
    cases arrived with
    | nil => simp [next, burst, afterBurst, prompt, packet.filled]
    | cons byte arrived => exact ⟨rfl, rfl, List.cons_ne_nil _ _⟩

/-- Without bytes available the burst is over. -/
theorem burst_end (drained : socket.available = false) : socket.burst = [] ∧ socket.afterBurst = socket := by
  obtain ⟨arrived, coming, closes⟩ := socket
  cases arrived with
  | nil =>
    cases coming with
    | nil => exact ⟨rfl, rfl⟩
    | cons packet coming =>
      have slow : packet.prompt = false := drained
      simp [burst, afterBurst, slow]
  | cons byte arrived => cases drained

end Socket

namespace ThreadHandler

/-- The sizes that a buffer has. -/
def IsSize (size : Nat) : Prop := ∃ k ≤ 30, size = 2 ^ k

theorem reallocate_some {size filled : Nat} (sized : IsSize size) (fits : filled ≤ size) (small : filled < 2 ^ 30) :
    ∃ larger, reallocate size filled = some larger ∧ IsSize larger ∧ filled < larger := by
  unfold reallocate
  obtain ⟨k, bound, rfl⟩ := sized
  by_cases full : filled = 2 ^ k
  · have below : k < 30 := (Nat.pow_lt_pow_iff_right (by decide)).mp (full ▸ small)
    have double : 2 * 2 ^ k = 2 ^ (k + 1) := by rw [Nat.pow_succ, Nat.mul_comm]
    have less : 2 ^ (k + 1) < 2 ^ 31 := Nat.pow_lt_pow_right (by decide) (by omega)
    refine ⟨2 ^ (k + 1), by rw [if_pos full, double, if_pos less], ⟨k + 1, below, rfl⟩, ?_⟩
    rw [full]
    exact Nat.pow_lt_pow_right (by decide) (by omega)
  · exact ⟨2 ^ k, if_neg full, ⟨k, bound, rfl⟩, lt_of_le_of_ne fits full⟩

theorem reallocate_none {size filled : Nat} (sized : IsSize size) (fits : filled ≤ size) (large : 2 ^ 30 ≤ filled) :
    reallocate size filled = none := by
  obtain ⟨k, bound, rfl⟩ := sized
  have most : 2 ^ k ≤ 2 ^ 30 := Nat.pow_le_pow_right (by decide) bound
  unfold reallocate
  rw [if_pos (by omega), if_neg (by omega)]

section

variable {fuel size : Nat} {socket : Socket} {buf : List UInt8}

theorem readAvailable_next (arrived : socket.next.arrived ≠ []) :
    readAvailable fuel socket.next buf size = readAvailable fuel socket buf size := by
  cases fuel with
  | zero => rfl
  | succ fuel => simp only [readAvailable, ← socket.read_next, socket.next.read_of_arrived arrived]

/-- A turn of the first loop, and the loop after it. -/
theorem readAvailable_spec (arrived : socket.arrived ≠ []) (enough : socket.pending.length < fuel) (sized : IsSize size)
    (room : buf.length < size) :
    (buf.length + socket.burst.length < 2 ^ 30 → ∃ larger, IsSize larger ∧
      readAvailable fuel socket buf size = some (buf ++ socket.burst, larger, socket.afterBurst)) ∧
    (2 ^ 30 ≤ buf.length + socket.burst.length → readAvailable fuel socket buf size = none) := by
  induction fuel generalizing socket buf size with
  | zero => cases enough
  | succ fuel ih =>
    obtain ⟨read, taken⟩ : ∃ read, read = socket.arrived.take (size - buf.length) := ⟨_, rfl⟩
    obtain ⟨rest, left⟩ : ∃ rest : Socket, rest = ⟨socket.arrived.drop (size - buf.length), socket.coming, socket.closes⟩ := ⟨_, rfl⟩
    have burst : socket.burst = read ++ rest.burst := by
      rw [taken, left, Socket.burst, Socket.burst, ← List.append_assoc, List.take_append_drop]
    have pending : socket.pending = read ++ rest.pending := by
      rw [taken, left, Socket.pending, Socket.pending, ← List.append_assoc, List.take_append_drop]
    have after : socket.afterBurst = rest.afterBurst := by rw [left, Socket.afterBurst, Socket.afterBurst]
    have some_ : 0 < read.length := by
      have := List.length_pos_iff.mpr arrived
      rw [taken, List.length_take]
      omega
    have fits : buf.length + read.length ≤ size := by
      rw [taken, List.length_take]
      omega
    have turn : readAvailable (fuel + 1) socket buf size = (reallocate size (buf.length + read.length)).bind fun size =>
        if rest.available then readAvailable fuel rest (buf ++ read) size else some (buf ++ read, size, rest) := by
      rw [readAvailable, socket.read_of_arrived arrived, ← taken, ← left]
    rw [turn, burst, after, List.length_append, ← List.append_assoc, ← Nat.add_assoc]
    rcases Nat.lt_or_ge (buf.length + read.length) (2 ^ 30) with small | large
    · obtain ⟨larger, grown, sized, room⟩ := reallocate_some sized fits small
      rw [grown, Option.bind_some]
      by_cases available : rest.available = true
      · obtain ⟨same, drained, arrived⟩ := rest.burst_next available
        have later := @ih larger rest.next (buf ++ read) arrived
          (by rw [pending, List.length_append] at enough; rw [rest.pending_next]; omega) sized (by rwa [List.length_append])
        rw [readAvailable_next arrived, same, drained, List.length_append] at later
        rwa [if_pos available]
      · obtain ⟨none, same⟩ := rest.burst_end (Bool.eq_false_of_not_eq_true available)
        rw [if_neg available, none, same, List.append_nil]
        exact ⟨fun _ => ⟨larger, sized, rfl⟩, fun large => absurd small (Nat.not_lt.mpr large)⟩
    · rw [reallocate_none sized fits large]
      exact ⟨fun small => absurd small (by omega), fun _ => rfl⟩

/-- The second loop reads all that comes. -/
theorem readToEnd_spec (enough : socket.pending.length < fuel) (sized : IsSize size) (room : buf.length < size) :
    readToEnd fuel socket buf size =
      if buf.length + socket.pending.length < 2 ^ 30 then some (buf ++ socket.pending) else none := by
  induction fuel generalizing socket buf size with
  | zero => cases enough
  | succ fuel ih =>
    have below : buf.length < 2 ^ 30 := by
      obtain ⟨k, bound, rfl⟩ := sized
      exact room.trans_le (Nat.pow_le_pow_right (by decide) bound)
    by_cases drained : socket.pending = []
    · have none := socket.next_arrived_eq_nil.mpr drained
      rw [readToEnd, Socket.read, if_pos none, drained, List.append_nil, List.length_nil, Nat.add_zero, if_pos below]
      cases socket.closes <;> rfl
    · have arrived : socket.next.arrived ≠ [] := mt socket.next_arrived_eq_nil.mp drained
      obtain ⟨read, taken⟩ : ∃ read, read = socket.next.arrived.take (size - buf.length) := ⟨_, rfl⟩
      obtain ⟨rest, left⟩ : ∃ rest : Socket,
          rest = ⟨socket.next.arrived.drop (size - buf.length), socket.next.coming, socket.closes⟩ := ⟨_, rfl⟩
      have pending : socket.pending = read ++ rest.pending := by
        rw [← socket.pending_next, taken, left, Socket.pending, Socket.pending, ← List.append_assoc, List.take_append_drop]
      have some_ : 0 < read.length := by
        have := List.length_pos_iff.mpr arrived
        rw [taken, List.length_take]
        omega
      have fits : buf.length + read.length ≤ size := by
        rw [taken, List.length_take]
        omega
      have turn : readToEnd (fuel + 1) socket buf size =
          (reallocate size (buf.length + read.length)).bind fun size => readToEnd fuel rest (buf ++ read) size := by
        rw [readToEnd, Socket.read, if_neg arrived, ← taken, ← left]
      rw [turn, pending, List.length_append, ← List.append_assoc, ← Nat.add_assoc]
      rcases Nat.lt_or_ge (buf.length + read.length) (2 ^ 30) with small | large
      · obtain ⟨larger, grown, sized, room⟩ := reallocate_some sized fits small
        rw [grown, Option.bind_some, ih (by rw [pending, List.length_append] at enough; omega) sized (by rwa [List.length_append]),
          List.length_append]
      · rw [reallocate_none sized fits large, if_neg (by omega)]
        rfl

end

/-- The bytes of the first packet and of those that come without a pause behind it. -/
def firstBurst : List Packet → List UInt8
  | [] => []
  | packet :: rest => packet.bytes ++ (rest.takeWhile Packet.prompt).flatMap Packet.bytes

/-- The bytes after the first pause. -/
def laterBytes : List Packet → List UInt8
  | [] => []
  | _ :: rest => (rest.dropWhile Packet.prompt).flatMap Packet.bytes

theorem firstBurst_append (packets : List Packet) : firstBurst packets ++ laterBytes packets = packets.flatMap Packet.bytes := by
  cases packets with
  | nil => rfl
  | cons packet rest =>
    rw [firstBurst, laterBytes, List.append_assoc, ← List.flatMap_append, List.takeWhile_append_dropWhile, List.flatMap_cons]

/-- The bytes before the first pause are all, or do not look like a whole request,
and no loop fills the largest buffer. -/
def TakenWhole (charset : Charset) (packets : List Packet) : Prop :=
  (firstBurst packets).length < 2 ^ 30 ∧
    (laterBytes packets = [] ∨ ¬ LooksWhole charset (firstBurst packets) ∧ (laterBytes packets).length < 2 ^ 30)

/-- What the first loop reads of the packets. -/
theorem readAvailable_packets {packets : List Packet} (sending : packets ≠ []) (closes : Bool) :
    ((firstBurst packets).length < 2 ^ 30 → ∃ size socket, IsSize size ∧ 0 < size ∧ socket.pending = laterBytes packets ∧
      readAvailable ((Socket.mk [] packets closes).pending.length + 1) ⟨[], packets, closes⟩ [] 256 =
        some (firstBurst packets, size, socket)) ∧
    (2 ^ 30 ≤ (firstBurst packets).length →
      readAvailable ((Socket.mk [] packets closes).pending.length + 1) ⟨[], packets, closes⟩ [] 256 = none) := by
  obtain ⟨packet, rest, rfl⟩ := List.exists_cons_of_ne_nil sending
  have spec := @readAvailable_spec ((Socket.mk [] (packet :: rest) closes).pending.length + 1) 256
    (Socket.next ⟨[], packet :: rest, closes⟩) [] packet.filled (by rw [Socket.pending_next]; omega) ⟨8, by decide, rfl⟩ (by decide)
  have begun : (Socket.next ⟨[], packet :: rest, closes⟩).arrived ≠ [] := packet.filled
  rw [readAvailable_next begun, List.length_nil, Nat.zero_add, List.nil_append] at spec
  refine ⟨fun small => ?_, spec.2⟩
  obtain ⟨size, sized, same⟩ := spec.1 small
  obtain ⟨k, -, rfl⟩ := id sized
  exact ⟨_, _, sized, Nat.pow_pos (by decide), rfl, same⟩

/-- What is read of the packets: those after the first pause only where the bytes
before it do not look like a whole request. -/
theorem transformToByteArray_eq (charset : Charset) {packets : List Packet} (sending : packets ≠ []) (closes : Bool) :
    transformToByteArray charset ⟨[], packets, closes⟩ =
      if (firstBurst packets).length < 2 ^ 30 then
        if LooksWhole charset (firstBurst packets) then some (firstBurst packets)
        else if (laterBytes packets).length < 2 ^ 30 then some (packets.flatMap Packet.bytes) else none
      else none := by
  obtain ⟨read, raised⟩ := readAvailable_packets sending closes
  unfold transformToByteArray
  split
  · rename_i small
    obtain ⟨size, socket, sized, room, rest, same⟩ := read small
    rw [same, Option.bind_some]
    dsimp only
    split
    · rfl
    · rw [@readToEnd_spec _ size socket [] (Nat.lt_succ_self _) sized room, rest, List.length_nil, Nat.zero_add, List.nil_append,
        ← firstBurst_append]
      split <;> rfl
  · rename_i large
    rw [raised (Nat.not_lt.mp large)]
    rfl

/-- A request is read as it is exactly when the bytes before the first pause are
not mistaken for the whole of it. -/
theorem transformToByteArray_whole_iff (charset : Charset) {request : List UInt8} {packets : List Packet}
    (sent : packets.flatMap Packet.bytes = request) (filled : request ≠ []) (closes : Bool) :
    transformToByteArray charset ⟨[], packets, closes⟩ = some request ↔ TakenWhole charset packets := by
  have sending : packets ≠ [] := by
    rintro rfl
    exact filled sent.symm
  rw [transformToByteArray_eq charset sending, ← sent]
  unfold TakenWhole
  split
  · rename_i small
    split
    · rename_i looks
      rw [← firstBurst_append]
      constructor
      · intro same
        exact ⟨small, .inl (List.append_right_eq_self.mp (Option.some.inj same).symm)⟩
      · rintro ⟨-, drained | ⟨other, -⟩⟩
        · rw [drained, List.append_nil]
        · exact absurd looks other
    · rename_i other
      split
      · rename_i fits
        exact iff_of_true rfl ⟨small, .inr ⟨other, fits⟩⟩
      · rename_i long
        refine iff_of_false (by rintro ⟨⟩) ?_
        rintro ⟨-, drained | ⟨-, fits⟩⟩
        · rw [drained] at long
          exact long (Nat.pow_pos (by decide))
        · exact long fits
  · rename_i large
    exact iff_of_false (by rintro ⟨⟩) fun whole => large whole.1

/-- A head that announces a body of 64 bytes. -/
def longHead : List Char := "POST / HTTP/1.1\r\nContent-Length: 64\r\n\r\n".toList

theorem longHead_filled : Charset.utf8.getBytes longHead ≠ [] := by decide

theorem longBody_filled : List.replicate 64 (0x20 : UInt8) ≠ [] := by decide

/-- It is read on after a pause, as the body is longer than the head. -/
theorem longHead_read : transformToByteArray Charset.utf8
    ⟨[], [⟨Charset.utf8.getBytes longHead, true, longHead_filled⟩, ⟨List.replicate 64 0x20, false, longBody_filled⟩], true⟩ =
      some (Charset.utf8.getBytes longHead ++ List.replicate 64 0x20) := by
  refine (transformToByteArray_whole_iff Charset.utf8 (by simp) (by simp) true).mpr ?_
  have first : firstBurst [⟨Charset.utf8.getBytes longHead, true, longHead_filled⟩,
      ⟨List.replicate 64 0x20, false, longBody_filled⟩] = Charset.utf8.getBytes longHead := List.append_nil _
  have later : laterBytes [⟨Charset.utf8.getBytes longHead, true, longHead_filled⟩,
      ⟨List.replicate 64 0x20, false, longBody_filled⟩] = List.replicate 64 0x20 := List.append_nil _
  have other : ¬ LooksWhole Charset.utf8 (Charset.utf8.getBytes longHead) := by
    unfold LooksWhole
    rw [Charset.decode_getBytes]
    decide
  unfold TakenWhole
  rw [first, later]
  exact ⟨by decide, .inr ⟨other, by decide⟩⟩

/-- The lines before the body of a request. -/
def headOf (lines : List (List Char)) : List Char := lines.flatMap (· ++ "\r\n".toList) ++ "\r\n".toList

/-- A complete request: lines, of which one tells the length of the body, and the
body. -/
def IsRequest (charset : Charset) (request : List UInt8) : Prop :=
  ∃ lines body, "Content-Length: ".toList ++ Nat.toDigits 10 body.length ∈ lines ∧
    (∀ line ∈ lines, line ≠ [] ∧ '\r' ∉ line ∧ '\n' ∉ line) ∧ request = charset.getBytes (headOf lines) ++ body

/-- The lines of a request with a body of two bytes. -/
def shortLines : List (List Char) := ["POST / HTTP/1.1".toList, "Content-Length: 2".toList]

def shortHead : List UInt8 := Charset.utf8.getBytes (headOf shortLines)

theorem shortHead_filled : shortHead ≠ [] := by decide

theorem shortBody_filled : [0x7b, 0x7d] ≠ ([] : List UInt8) := by decide

theorem shortRequest_isRequest : IsRequest Charset.utf8 (shortHead ++ [0x7b, 0x7d]) :=
  ⟨shortLines, [0x7b, 0x7d], by decide, by decide, rfl⟩

/-- With a pause between its head and its body. -/
theorem pausing_not_read :
    ¬ ∀ (charset : Charset) (request : List UInt8) (packets : List Packet) (closes : Bool), IsRequest charset request →
      packets.flatMap Packet.bytes = request → transformToByteArray charset ⟨[], packets, closes⟩ = some request := by
  intro claim
  have whole := claim Charset.utf8 _ [⟨shortHead, true, shortHead_filled⟩, ⟨[0x7b, 0x7d], false, shortBody_filled⟩] false
    shortRequest_isRequest (by simp)
  have looks : LooksWhole Charset.utf8 shortHead := by
    unfold LooksWhole shortHead
    rw [Charset.decode_getBytes]
    decide
  rw [transformToByteArray_eq _ (List.cons_ne_nil _ _)] at whole
  have first : firstBurst [⟨shortHead, true, shortHead_filled⟩, ⟨[0x7b, 0x7d], false, shortBody_filled⟩] = shortHead :=
    List.append_nil _
  rw [first, if_pos (by decide), if_pos looks] at whole
  exact absurd (congrArg List.length (Option.some.inj whole)) (by decide)

end ThreadHandler

end ConPaaS
