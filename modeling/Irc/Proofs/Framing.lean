/-
Framing does not depend on how the bytes arrive.

A stream of bytes is a run of lines, each with a line feed at its end, and an
unfinished tail.  `Framed` says which frames a stream stands for: one for each
line, in order, and one more for a tail that has grown too long.  A reader that
gets the stream in pieces gives these frames, wherever the pieces are cut:

* **`drain_framed`** — draining a buffer gives the frames of its bytes;
* **`feed_framed`** — another piece gives the frames that are still missing;
* **`Framed.agree`** — a stream fixes its frames up to the reported lengths;
* **`feedAll_framed`** — all pieces together give the frames of the stream.

The reader slices its buffer at places that it remembers or has found.  `next?`
is the reader with every slice checked and `drainWithin` bounds the number of
its calls; both agree with the unchecked reader on every stream.
-/
import Irc.Framing
import Mathlib.Data.List.Basic
import Mathlib.Data.List.Forall2

namespace Irc.Text

/-- Bytes decode to the one text whose UTF-8 they are. -/
theorem ofUtf8?_eq_some_iff {bytes : List UInt8} {s : String} :
    ofUtf8? bytes = some s ↔ utf8Bytes s = bytes := by
  unfold ofUtf8? utf8Bytes String.fromUTF8?
  constructor
  · intro h
    split at h
    · rw [Option.some_inj] at h
      subst h
      rfl
    · exact absurd h (by simp)
  · rintro rfl
    rw [Array.toArray_toList]
    exact dif_pos s.isValidUTF8

/-- Bytes that do not decode are the UTF-8 of no text. -/
theorem ofUtf8?_eq_none_iff {bytes : List UInt8} :
    ofUtf8? bytes = none ↔ ∀ s, utf8Bytes s ≠ bytes := by
  rw [Option.eq_none_iff_forall_ne_some]
  exact forall_congr' fun s => not_congr ofUtf8?_eq_some_iff

end Irc.Text

namespace Irc.Framer

/-! ### The frames of a stream -/

/-- A line without one carriage return at its end. -/
def chomp (line : List UInt8) : List UInt8 :=
  if line.getLast? = some carriageReturn then line.dropLast else line

/-- The frame of a line, which is given without its line feed.  The length that
an error reports is only known to be over the limit. -/
inductive FrameOf (limit : Nat) (line : List UInt8) : Frame → Prop
  | tooLong {length : Nat} (hline : limit < line.length + 1) (hlength : limit < length) :
      FrameOf limit line (.error (.tooLong length limit))
  | text {s : String} (hline : line.length + 1 ≤ limit) (hs : Text.utf8Bytes s = chomp line) :
      FrameOf limit line (.ok s)
  | undecodable (hline : line.length + 1 ≤ limit) (hs : ∀ s, Text.utf8Bytes s ≠ chomp line) :
      FrameOf limit line (.error (.undecodable encoding))

/-- The frames of a stream, and its unfinished tail. -/
inductive Framed (limit : Nat) : List UInt8 → List Frame → List UInt8 → Prop
  | tail {tail : List UInt8} (hfeed : lineFeed ∉ tail) (hlen : tail.length ≤ limit) :
      Framed limit tail [] tail
  | longTail {tail : List UInt8} {length : Nat} (hfeed : lineFeed ∉ tail)
      (hlen : limit < tail.length) (hlength : limit < length) :
      Framed limit tail [.error (.tooLong length limit)] tail
  | line {line rest tail : List UInt8} {frame : Frame} {frames : List Frame}
      (hfeed : lineFeed ∉ line) (hframe : FrameOf limit line frame)
      (hrest : Framed limit rest frames tail) :
      Framed limit (line ++ lineFeed :: rest) (frame :: frames) tail

/-- What is kept of an unfinished tail. -/
def held (limit : Nat) (tail : List UInt8) : List UInt8 :=
  if tail.length ≤ limit then tail else []

/-- The reader behind a stream with the given tail. -/
def behind (limit : Nat) (tail : List UInt8) : Framer where
  limit := limit
  scanned := (held limit tail).length
  discarding := limit < tail.length

/-- A reader that has not begun, with the given limit. -/
def ofLimit (limit : Nat) : Framer := { limit := limit }

/-- Takes in the pieces of a stream one after the other. -/
def feedAll (f : Framer) (buffer : List UInt8) :
    List (List UInt8) → List Frame × Framer × List UInt8
  | [] => ([], f, buffer)
  | piece :: pieces =>
    let (frames, after, left) := f.feed buffer piece
    let (more, last, rest) := feedAll after left pieces
    (frames ++ more, last, rest)

/-- Two frames that are equal but for the length of a line that was too long. -/
inductive SameUpToLength : Frame → Frame → Prop
  | refl (frame : Frame) : SameUpToLength frame frame
  | tooLong (m n limit : Nat) :
      SameUpToLength (.error (.tooLong m limit)) (.error (.tooLong n limit))

/-! ### Taking one line off a buffer -/

/-- Induction over the lines of a stream. -/
theorem stream_induction {P : List UInt8 → Prop} (tail : ∀ t, lineFeed ∉ t → P t)
    (line : ∀ l rest, lineFeed ∉ l → P rest → P (l ++ lineFeed :: rest)) (b : List UInt8) :
    P b := by
  induction hn : b.length using Nat.strongRecOn generalizing b with
  | ind n ih =>
    by_cases hb : lineFeed ∈ b
    · obtain ⟨l, rest, rfl, hl⟩ := List.eq_append_cons_of_mem hb
      refine line l rest hl (ih rest.length ?_ rest rfl)
      rw [← hn, List.length_append, List.length_cons]
      omega
    · exact tail b hb

theorem findIdx?_of_notMem {t : List UInt8} (h : lineFeed ∉ t) :
    t.findIdx? (· = lineFeed) = none := by
  rw [List.findIdx?_eq_none_iff]
  intro b hb
  exact decide_eq_false fun hfeed => h (hfeed ▸ hb)

theorem findIdx?_line {l : List UInt8} (h : lineFeed ∉ l) (rest : List UInt8) :
    (l ++ lineFeed :: rest).findIdx? (· = lineFeed) = some l.length := by
  rw [List.findIdx?_append, findIdx?_of_notMem h]
  simp [List.findIdx?_cons]

/-- The search goes on behind the bytes that are known to hold no line feed. -/
theorem findIdx?_drop_line {l : List UInt8} (h : lineFeed ∉ l) {k : Nat} (hk : k ≤ l.length)
    (rest : List UInt8) :
    ((l ++ lineFeed :: rest).drop k).findIdx? (· = lineFeed) = some (l.length - k) := by
  rw [List.drop_append_of_le_length hk, findIdx?_line (fun hm => h (List.mem_of_mem_drop hm)),
    List.length_drop]

/-- The first line of a stream is determined. -/
theorem line_inj {l l' rest rest' : List UInt8} (hl : lineFeed ∉ l) (hl' : lineFeed ∉ l')
    (h : l ++ lineFeed :: rest = l' ++ lineFeed :: rest') : l = l' ∧ rest = rest' := by
  have hlength : some l.length = some l'.length := by
    rw [← findIdx?_line hl rest, h, findIdx?_line hl' rest']
  obtain ⟨hll, hrest⟩ := List.append_inj h (Option.some_inj.mp hlength)
  exact ⟨hll, List.tail_eq_of_cons_eq hrest⟩

theorem frameOf_decodeLine {limit : Nat} {line : List UInt8} (h : line.length + 1 ≤ limit) :
    FrameOf limit line (decodeLine line) := by
  rw [decodeLine, ← chomp]
  cases hs : Text.ofUtf8? (chomp line) with
  | some s => exact .text h (Text.ofUtf8?_eq_some_iff.mp hs)
  | none => exact .undecodable h (Text.ofUtf8?_eq_none_iff.mp hs)

/-! ### Draining a buffer -/

theorem drain_eq_of_next_none {f after : Framer} {buffer left : List UInt8}
    (h : f.next buffer = (none, after, left)) : f.drain buffer = ([], after, left) := by
  rw [drain]
  split
  · rename_i h'
    rw [h] at h'
    simp only [Prod.mk.injEq, true_and] at h'
    rw [h'.1, h'.2]
  · rename_i h'
    rw [h] at h'
    exact absurd h' (by simp)

theorem drain_eq_of_next_some {f after : Framer} {buffer left : List UInt8} {frame : Frame}
    (h : f.next buffer = (some frame, after, left)) :
    f.drain buffer = (frame :: (after.drain left).1, (after.drain left).2) := by
  rw [drain]
  split
  · rename_i h'
    rw [h] at h'
    exact absurd h' (by simp)
  · rename_i h'
    rw [h] at h'
    simp only [Prod.mk.injEq, Option.some.injEq] at h'
    rw [h'.1, h'.2.1, h'.2.2]

theorem limit_scan (f : Framer) (buffer : List UInt8) : (f.scan buffer).2.1.limit = f.limit := by
  unfold scan
  split
  · split <;> rfl
  · dsimp only
    split <;> rfl

theorem limit_next (f : Framer) (buffer : List UInt8) : (f.next buffer).2.1.limit = f.limit := by
  unfold next
  split
  · split
    · rfl
    · exact limit_scan _ _
  · exact limit_scan f buffer

/-- The limit of a reader never changes. -/
theorem limit_drain (f : Framer) (buffer : List UInt8) :
    (f.drain buffer).2.1.limit = f.limit := by
  induction f, buffer using drain.induct with
  | case1 f buffer after left h =>
    have hlimit := f.limit_next buffer
    rw [h] at hlimit
    rwa [drain_eq_of_next_none h]
  | case2 f buffer frame after left h _ _ _ _ ih =>
    have hlimit := f.limit_next buffer
    rw [h] at hlimit
    rw [drain_eq_of_next_some h]
    exact ih.trans hlimit

/-- A reader that discards takes in what holds no line feed, and gives nothing. -/
theorem drain_discarding_tail (limit : Nat) {t : List UInt8} (h : lineFeed ∉ t) :
    drain ⟨limit, 0, true⟩ t = ([], ⟨limit, 0, true⟩, []) := by
  apply drain_eq_of_next_none
  simp only [next, if_true, findIdx?_of_notMem h]

/-- Behind the end of the line that was too long, the reader starts anew. -/
theorem drain_discarding_line (limit : Nat) {l : List UInt8} (h : lineFeed ∉ l)
    (rest : List UInt8) :
    drain ⟨limit, 0, true⟩ (l ++ lineFeed :: rest) = drain ⟨limit, 0, false⟩ rest := by
  have hnext : next ⟨limit, 0, true⟩ (l ++ lineFeed :: rest) = next ⟨limit, 0, false⟩ rest := by
    -- one call finds the end of the line and goes on behind it
    have hdrop : (l ++ lineFeed :: rest).drop (l.length + 1) = rest := by
      rw [← List.drop_drop, List.drop_left]
      rfl
    simp only [next, if_true, findIdx?_line h, hdrop, Bool.false_eq_true, if_false]
  rcases hr : next ⟨limit, 0, false⟩ rest with ⟨_ | frame, after, left⟩
  · rw [drain_eq_of_next_none hr, drain_eq_of_next_none (hnext.trans hr)]
  · rw [drain_eq_of_next_some hr, drain_eq_of_next_some (hnext.trans hr)]

/-- A tail within the limit is kept for later. -/
theorem drain_tail {limit k : Nat} {t : List UInt8} (h : lineFeed ∉ t) (hlen : t.length ≤ limit) :
    drain ⟨limit, k, false⟩ t = ([], ⟨limit, t.length, false⟩, t) := by
  apply drain_eq_of_next_none
  simp only [next, scan, Bool.false_eq_true, if_false,
    findIdx?_of_notMem fun hm => h (List.mem_of_mem_drop hm), if_neg (Nat.not_lt.mpr hlen)]

/-- A longer tail is reported and dropped at once. -/
theorem drain_longTail {limit k : Nat} {t : List UInt8} (h : lineFeed ∉ t)
    (hlen : limit < t.length) :
    drain ⟨limit, k, false⟩ t =
      ([.error (.tooLong t.length limit)], ⟨limit, 0, true⟩, []) := by
  have hnext : next ⟨limit, k, false⟩ t =
      (some (.error (.tooLong t.length limit)), ⟨limit, 0, true⟩, []) := by
    simp only [next, scan, Bool.false_eq_true, if_false,
      findIdx?_of_notMem fun hm => h (List.mem_of_mem_drop hm), if_pos hlen]
  -- the report empties the buffer, so the call behind it finds nothing
  rw [drain_eq_of_next_some hnext, drain_discarding_tail limit List.not_mem_nil]

/-- A line gives its frame, and the reader starts anew behind it. -/
theorem drain_line {limit k : Nat} {l : List UInt8} (h : lineFeed ∉ l) (hk : k ≤ l.length)
    (rest : List UInt8) :
    ∃ frame, FrameOf limit l frame ∧
      drain ⟨limit, k, false⟩ (l ++ lineFeed :: rest) =
        (frame :: (drain ⟨limit, 0, false⟩ rest).1, (drain ⟨limit, 0, false⟩ rest).2) := by
  have hsize : k + (l.length - k) + 1 = l.length + 1 := by omega
  have htake : (l ++ lineFeed :: rest).take (l.length + 1 - 1) = l := by
    rw [Nat.add_sub_cancel, List.take_left]
  have hdrop : (l ++ lineFeed :: rest).drop (l.length + 1) = rest := by
    rw [← List.drop_drop, List.drop_left]
    rfl
  by_cases hlimit : limit < l.length + 1
  · refine ⟨_, .tooLong hlimit hlimit, ?_⟩
    apply drain_eq_of_next_some
    simp only [next, scan, Bool.false_eq_true, if_false, findIdx?_drop_line h hk, hsize,
      if_pos hlimit, hdrop]
  · refine ⟨_, frameOf_decodeLine (Nat.not_lt.mp hlimit), ?_⟩
    apply drain_eq_of_next_some
    simp only [next, scan, Bool.false_eq_true, if_false, findIdx?_drop_line h hk, hsize,
      if_neg hlimit, htake, hdrop]

/-! ### From one piece to the next -/

theorem held_of_le {limit : Nat} {tail : List UInt8} (h : tail.length ≤ limit) :
    held limit tail = tail := if_pos h

theorem held_of_lt {limit : Nat} {tail : List UInt8} (h : limit < tail.length) :
    held limit tail = [] := if_neg (Nat.not_le.mpr h)

theorem behind_of_le {limit : Nat} {tail : List UInt8} (h : tail.length ≤ limit) :
    behind limit tail = ⟨limit, tail.length, false⟩ := by
  rw [behind, held_of_le h, decide_eq_false (Nat.not_lt.mpr h)]

theorem behind_of_lt {limit : Nat} {tail : List UInt8} (h : limit < tail.length) :
    behind limit tail = ⟨limit, 0, true⟩ := by
  rw [behind, held_of_lt h, decide_eq_true h]
  rfl

/-- Draining a buffer, whose front of `k` bytes is known to hold no line feed,
gives the frames of its bytes. -/
theorem drain_framed (limit : Nat) (b : List UInt8) {k : Nat} (hk : k ≤ b.length)
    (hfeed : lineFeed ∉ b.take k) :
    ∃ tail, Framed limit b (drain ⟨limit, k, false⟩ b).1 tail ∧
      (drain ⟨limit, k, false⟩ b).2 = (behind limit tail, held limit tail) := by
  induction b using stream_induction generalizing k with
  | tail t ht =>
    refine ⟨t, ?_⟩
    rcases Nat.lt_or_ge limit t.length with hlen | hlen
    · rw [drain_longTail ht hlen, behind_of_lt hlen, held_of_lt hlen]
      exact ⟨.longTail ht hlen hlen, rfl⟩
    · rw [drain_tail ht hlen, behind_of_le hlen, held_of_le hlen]
      exact ⟨.tail ht hlen, rfl⟩
  | line l rest hl ih =>
    -- the front that was searched cannot reach past the first line feed
    have hkl : k ≤ l.length := by
      by_contra hlt
      refine hfeed ?_
      obtain ⟨j, rfl⟩ : ∃ j, k = l.length + 1 + j := ⟨k - (l.length + 1), by omega⟩
      rw [show l.length + 1 + j = l.length + (j + 1) by omega, List.take_length_add_append]
      simp
    obtain ⟨frame, hframe, hdrain⟩ := drain_line hl hkl rest
    obtain ⟨tail, hrest, hlast⟩ := ih (Nat.zero_le _) (by simp)
    rw [hdrain]
    exact ⟨tail, .line hl hframe hrest, hlast⟩

/-- One more piece gives the frames that the longer stream has in addition. -/
theorem feed_framed {limit : Nat} {b tail : List UInt8} {frames : List Frame}
    (h : Framed limit b frames tail) (piece : List UInt8) :
    ∃ tail', Framed limit (b ++ piece)
        (frames ++ ((behind limit tail).feed (held limit tail) piece).1) tail' ∧
      ((behind limit tail).feed (held limit tail) piece).2 =
        (behind limit tail', held limit tail') := by
  induction h with
  | @tail tail hfeed hlen =>
    -- the kept bytes have been searched before
    have hbuffer := drain_framed limit (tail ++ piece) (k := tail.length)
      (by rw [List.length_append]; omega) (by rwa [List.take_left])
    rw [behind_of_le hlen, held_of_le hlen]
    exact hbuffer
  | @longTail tail length hfeed hlen hlength =>
    rw [behind_of_lt hlen, held_of_lt hlen]
    show ∃ tail', Framed limit (tail ++ piece)
      (.error (.tooLong length limit) :: (drain ⟨limit, 0, true⟩ piece).1) tail' ∧
        (drain ⟨limit, 0, true⟩ piece).2 = (behind limit tail', held limit tail')
    by_cases hpiece : lineFeed ∈ piece
    · -- the line that was too long ends here, and has its frame already
      obtain ⟨l, rest, rfl, hl⟩ := List.eq_append_cons_of_mem hpiece
      obtain ⟨tail', hrest, hlast⟩ := drain_framed limit rest (k := 0)
        (Nat.zero_le _) (by simp)
      have hline : FrameOf limit (tail ++ l) (.error (.tooLong length limit)) :=
        .tooLong (by rw [List.length_append]; omega) hlength
      rw [drain_discarding_line limit hl, ← List.append_assoc]
      refine ⟨tail', .line ?_ hline hrest, hlast⟩
      exact List.not_mem_append hfeed hl
    · -- the line goes on, and keeps the frame it has
      have hlen' : limit < (tail ++ piece).length := by rw [List.length_append]; omega
      rw [drain_discarding_tail limit hpiece]
      refine ⟨tail ++ piece, .longTail (List.not_mem_append hfeed hpiece) hlen' hlength, ?_⟩
      rw [behind_of_lt hlen', held_of_lt hlen']
  | line hfeed hframe hrest ih =>
    -- the piece comes behind the finished lines, whose frames stay
    obtain ⟨tail', hframed, hlast⟩ := ih
    refine ⟨tail', ?_, hlast⟩
    rw [List.append_assoc, List.cons_append, List.cons_append]
    exact .line hfeed hframe hframed

theorem feedAll_cons (f : Framer) (buffer piece : List UInt8) (pieces : List (List UInt8)) :
    f.feedAll buffer (piece :: pieces) =
      ((f.feed buffer piece).1 ++
          ((f.feed buffer piece).2.1.feedAll (f.feed buffer piece).2.2 pieces).1,
        ((f.feed buffer piece).2.1.feedAll (f.feed buffer piece).2.2 pieces).2) := rfl

/-- All further pieces give the frames that the whole stream has in addition. -/
theorem feedAll_framed {limit : Nat} (pieces : List (List UInt8)) {b tail : List UInt8}
    {frames : List Frame} (h : Framed limit b frames tail) :
    ∃ tail', Framed limit (b ++ pieces.flatten)
        (frames ++ (feedAll (behind limit tail) (held limit tail) pieces).1) tail' ∧
      (feedAll (behind limit tail) (held limit tail) pieces).2 =
        (behind limit tail', held limit tail') := by
  induction pieces generalizing b frames tail with
  | nil =>
    refine ⟨tail, ?_, rfl⟩
    rw [List.flatten_nil, List.append_nil, feedAll, List.append_nil]
    exact h
  | cons piece pieces ih =>
    obtain ⟨tail₁, h₁, hstate⟩ := feed_framed h piece
    obtain ⟨tail₂, h₂, hlast⟩ := ih h₁
    rw [feedAll_cons, hstate, List.flatten_cons, ← List.append_assoc]
    refine ⟨tail₂, ?_, hlast⟩
    rw [← List.append_assoc]
    exact h₂

/-! ### A stream fixes its frames -/

theorem FrameOf.agree {limit : Nat} {line : List UInt8} {frame frame' : Frame}
    (h : FrameOf limit line frame) (h' : FrameOf limit line frame') :
    SameUpToLength frame frame' := by
  cases h with
  | tooLong hline =>
    cases h' with
    | tooLong => exact .tooLong ..
    | text hline' => exact absurd hline (Nat.not_lt.mpr hline')
    | undecodable hline' => exact absurd hline (Nat.not_lt.mpr hline')
  | @text s hline hs =>
    cases h' with
    | tooLong hline' => exact absurd hline' (Nat.not_lt.mpr hline)
    | @text s' hline' hs' =>
      have hss : some s = some s' :=
        (Text.ofUtf8?_eq_some_iff.mpr hs).symm.trans (Text.ofUtf8?_eq_some_iff.mpr hs')
      rw [Option.some_inj] at hss
      subst hss
      exact .refl _
    | undecodable hline' hs' => exact absurd hs (hs' s)
  | undecodable hline hs =>
    cases h' with
    | tooLong hline' => exact absurd hline' (Nat.not_lt.mpr hline)
    | @text s hline' hs' => exact absurd hs' (hs s)
    | undecodable => exact .refl _

/-- The frames of a stream that begins with a line. -/
theorem Framed.of_line {limit : Nat} {l rest tail : List UInt8} {frames : List Frame}
    (h : Framed limit (l ++ lineFeed :: rest) frames tail) (hl : lineFeed ∉ l) :
    ∃ frame more, frames = frame :: more ∧ FrameOf limit l frame ∧
      Framed limit rest more tail := by
  generalize hb : l ++ lineFeed :: rest = b at h
  cases h with
  | tail hfeed hlen => exact absurd (hb ▸ by simp) hfeed
  | longTail hfeed hlen hlength => exact absurd (hb ▸ by simp) hfeed
  | @line line rest' tail frame more hfeed hframe hrest =>
    obtain ⟨rfl, rfl⟩ := line_inj hl hfeed hb
    exact ⟨frame, more, rfl, hframe, hrest⟩

/-- The frames of a stream without a line feed. -/
theorem Framed.of_notMem {limit : Nat} {b tail : List UInt8} {frames : List Frame}
    (h : Framed limit b frames tail) (hb : lineFeed ∉ b) :
    tail = b ∧ ((b.length ≤ limit ∧ frames = []) ∨
      (limit < b.length ∧ ∃ n, frames = [.error (.tooLong n limit)])) := by
  cases h with
  | tail hfeed hlen => exact ⟨rfl, .inl ⟨hlen, rfl⟩⟩
  | @longTail _ length hfeed hlen hlength => exact ⟨rfl, .inr ⟨hlen, length, rfl⟩⟩
  | line => exact absurd (by simp) hb

/-- A stream fixes its tail, and its frames up to the reported lengths. -/
theorem Framed.agree {limit : Nat} {b tail tail' : List UInt8} {frames frames' : List Frame}
    (h : Framed limit b frames tail) (h' : Framed limit b frames' tail') :
    tail = tail' ∧ List.Forall₂ SameUpToLength frames frames' := by
  -- the stream tells which rule the second derivation begins with
  induction h generalizing frames' tail' with
  | tail hfeed hlen =>
    obtain ⟨rfl, ⟨-, rfl⟩ | ⟨hlen', -⟩⟩ := h'.of_notMem hfeed
    · exact ⟨rfl, .nil⟩
    · exact absurd hlen' (Nat.not_lt.mpr hlen)
  | longTail hfeed hlen hlength =>
    obtain ⟨rfl, ⟨hlen', -⟩ | ⟨-, n, rfl⟩⟩ := h'.of_notMem hfeed
    · exact absurd hlen (Nat.not_lt.mpr hlen')
    · exact ⟨rfl, .cons (.tooLong ..) .nil⟩
  | line hfeed hframe hrest ih =>
    obtain ⟨frame', more', rfl, hframe', hrest'⟩ := h'.of_line hfeed
    obtain ⟨htail, hmore⟩ := ih hrest'
    exact ⟨htail, .cons (hframe.agree hframe') hmore⟩

/-! ### The reader with its slices checked -/

/-- Takes `n` bytes off the front of a buffer that has them. -/
def splitTo? (n : Nat) (buffer : List UInt8) : Option (List UInt8 × List UInt8) :=
  if n ≤ buffer.length then some (buffer.take n, buffer.drop n) else none

/-- The line without its last byte, if it has one. -/
def withoutLast? (line : List UInt8) : Option (List UInt8) :=
  if 1 ≤ line.length then some (line.take (line.length - 1)) else none

/-- Takes a frame off the front of a buffer, with every slice checked. -/
def scan? (f : Framer) (buffer : List UInt8) :
    Option (Option Frame × Framer × List UInt8) := do
  let (_, unseen) ← splitTo? f.scanned buffer
  match unseen.findIdx? (· = lineFeed) with
  | none =>
    if f.limit < buffer.length then
      some (some (.error (.tooLong buffer.length f.limit)),
        { f with scanned := 0, discarding := true }, [])
    else
      some (none, { f with scanned := buffer.length }, buffer)
  | some offset =>
    let size := f.scanned + offset + 1
    let (line, rest) ← splitTo? size buffer
    if f.limit < size then
      some (some (.error (.tooLong size f.limit)), { f with scanned := 0 }, rest)
    else
      let body ← withoutLast? line
      some (some (decodeLine body), { f with scanned := 0 }, rest)

/-- Takes a frame off the front of a buffer, if there is one, with every slice
checked. -/
def next? (f : Framer) (buffer : List UInt8) : Option (Option Frame × Framer × List UInt8) :=
  if f.discarding then
    match buffer.findIdx? (· = lineFeed) with
    | none => some (none, f, [])
    | some offset => do
      let (_, rest) ← splitTo? (offset + 1) buffer
      scan? { f with discarding := false } rest
  else
    scan? f buffer

/-- Takes all frames off a buffer in at most the given number of calls. -/
def drainWithin : Nat → Framer → List UInt8 → Option (List Frame × Framer × List UInt8)
  | 0, _, _ => none
  | calls + 1, f, buffer => do
    match ← f.next? buffer with
    | (none, after, left) => some ([], after, left)
    | (some frame, after, left) =>
      let (frames, last, rest) ← drainWithin calls after left
      some (frame :: frames, last, rest)

/-- Takes in the pieces of a stream, with every slice checked, and with at most
one call more than there are bytes in the buffer for each piece. -/
def feedAll? (f : Framer) (buffer : List UInt8) :
    List (List UInt8) → Option (List Frame × Framer × List UInt8)
  | [] => some ([], f, buffer)
  | piece :: pieces => do
    let (frames, after, left) ← drainWithin ((buffer ++ piece).length + 1) f (buffer ++ piece)
    let (more, last, rest) ← feedAll? after left pieces
    some (frames ++ more, last, rest)

/-- The remembered place lies in the buffer, and is its front while the reader
discards. -/
structure InBounds (f : Framer) (buffer : List UInt8) : Prop where
  scanned_le : f.scanned ≤ buffer.length
  scanned_eq_zero : f.discarding = true → f.scanned = 0

theorem scan?_eq {f : Framer} {buffer : List UInt8} (h : f.scanned ≤ buffer.length) :
    f.scan? buffer = some (f.scan buffer) := by
  rw [scan?, splitTo?, if_pos h]
  cases hfeed : (buffer.drop f.scanned).findIdx? (· = lineFeed) with
  | none =>
    simp only [scan, hfeed, Option.bind_eq_bind, Option.bind_some]
    split <;> rfl
  | some offset =>
    have hoffset := (List.findIdx?_eq_some_iff_findIdx_eq.mp hfeed).1
    rw [List.length_drop] at hoffset
    have hsize : f.scanned + offset + 1 ≤ buffer.length := by omega
    have hline : (buffer.take (f.scanned + offset + 1)).length = f.scanned + offset + 1 := by
      rw [List.length_take, Nat.min_eq_left hsize]
    have hbody : withoutLast? (buffer.take (f.scanned + offset + 1)) =
        some (buffer.take (f.scanned + offset + 1 - 1)) := by
      rw [withoutLast?, hline, if_pos (by omega), List.take_take, Nat.min_eq_left (by omega)]
    simp only [scan, hfeed, splitTo?, if_pos hsize, hbody, Option.bind_eq_bind, Option.bind_some]
    split <;> rfl

theorem next?_eq {f : Framer} {buffer : List UInt8} (h : f.InBounds buffer) :
    f.next? buffer = some (f.next buffer) := by
  rw [next?, next]
  by_cases hd : f.discarding
  · rw [if_pos hd, if_pos hd]
    cases hfeed : buffer.findIdx? (· = lineFeed) with
    | none => rfl
    | some offset =>
      have hoffset := (List.findIdx?_eq_some_iff_findIdx_eq.mp hfeed).1
      have hscan : ({ f with discarding := false } : Framer).scanned ≤
          (buffer.drop (offset + 1)).length := by
        show f.scanned ≤ _
        rw [h.scanned_eq_zero hd]
        exact Nat.zero_le _
      simp only [splitTo?, if_pos (Nat.succ_le_of_lt hoffset), Option.bind_eq_bind,
        Option.bind_some, scan?_eq hscan]
  · rw [if_neg hd, if_neg hd]
    exact scan?_eq h.scanned_le

theorem inBounds_scan {f : Framer} (hd : f.discarding = false) (buffer : List UInt8) :
    (f.scan buffer).2.1.InBounds (f.scan buffer).2.2 := by
  rw [scan]
  split
  · split
    · exact ⟨Nat.zero_le _, fun _ => rfl⟩
    · exact ⟨Nat.le_refl _, fun h => absurd (hd.symm.trans h) Bool.false_ne_true⟩
  · dsimp only
    split <;> exact ⟨Nat.zero_le _, fun _ => rfl⟩

/-- Every call leaves the remembered place in the buffer. -/
theorem inBounds_next {f : Framer} {buffer : List UInt8} (h : f.InBounds buffer) :
    (f.next buffer).2.1.InBounds (f.next buffer).2.2 := by
  rw [next]
  by_cases hd : f.discarding
  · rw [if_pos hd]
    split
    · exact ⟨Nat.le_of_eq (h.scanned_eq_zero hd), h.scanned_eq_zero⟩
    · exact inBounds_scan rfl _
  · rw [if_neg hd]
    exact inBounds_scan (Bool.eq_false_iff.mpr hd) buffer

/-- Draining ends within one call more than there are bytes, with every slice in
range. -/
theorem drainWithin_eq {calls : Nat} {f : Framer} {buffer : List UInt8} (h : f.InBounds buffer)
    (hcalls : buffer.length < calls) :
    drainWithin calls f buffer = some (f.drain buffer) ∧
      (f.drain buffer).2.1.InBounds (f.drain buffer).2.2 := by
  induction calls generalizing f buffer with
  | zero => exact absurd hcalls (Nat.not_lt_zero _)
  | succ calls ih =>
    have hbounds := inBounds_next h
    rw [drainWithin, next?_eq h]
    rcases hnext : f.next buffer with ⟨_ | frame, after, left⟩
    · rw [hnext] at hbounds
      rw [drain_eq_of_next_none hnext]
      exact ⟨rfl, hbounds⟩
    · -- the frame has shortened the buffer, so one call less is enough for the rest
      have hlt := length_next_lt f buffer (by simp [hnext])
      rw [hnext] at hbounds hlt
      obtain ⟨hwithin, hlast⟩ := ih hbounds (Nat.lt_of_lt_of_le hlt (Nat.le_of_lt_succ hcalls))
      rw [drain_eq_of_next_some hnext]
      refine ⟨?_, hlast⟩
      simp only [Option.bind_eq_bind, Option.bind_some, hwithin]

theorem feedAll?_eq {f : Framer} {buffer : List UInt8} (h : f.InBounds buffer)
    (pieces : List (List UInt8)) : f.feedAll? buffer pieces = some (f.feedAll buffer pieces) := by
  induction pieces generalizing f buffer with
  | nil => rfl
  | cons piece pieces ih =>
    have hbuffer : f.InBounds (buffer ++ piece) :=
      ⟨by rw [List.length_append]; exact Nat.le_add_right_of_le h.scanned_le, h.scanned_eq_zero⟩
    obtain ⟨hwithin, hlast⟩ := drainWithin_eq hbuffer (Nat.lt_succ_self _)
    rw [feedAll?, hwithin]
    simp only [Option.bind_eq_bind, Option.bind_some, ih hlast]
    rfl

/-! ### All pieces of a stream -/

/-- **Framing does not depend on the cutting.**  A stream that arrives in pieces
gives the frames that `Framed` demands of it and leaves its tail in the buffer, or
nothing if the tail is too long; every call of the reader ends with its slices in
range; and another cutting of the same stream ends in the same state, with the
same frames up to the reported lengths. -/
theorem feed_pieces_framed (limit : Nat) (pieces : List (List UInt8)) :
    ∃ frames after tail,
      (ofLimit limit).feedAll [] pieces = (frames, after, held limit tail) ∧
      (ofLimit limit).feedAll? [] pieces = some (frames, after, held limit tail) ∧
      Framed limit pieces.flatten frames tail ∧
      ∀ pieces', pieces'.flatten = pieces.flatten →
        ∃ frames', (ofLimit limit).feedAll [] pieces' = (frames', after, held limit tail) ∧
          List.Forall₂ SameUpToLength frames frames' := by
  have hstart : Framed limit [] [] [] := .tail List.not_mem_nil (Nat.zero_le _)
  have hbounds : (ofLimit limit).InBounds [] := ⟨Nat.le_refl _, fun _ => rfl⟩
  -- the reader that has not begun is the one behind the empty stream
  have hall : ∀ pieces : List (List UInt8), ∃ frames tail,
      (ofLimit limit).feedAll [] pieces = (frames, behind limit tail, held limit tail) ∧
      Framed limit pieces.flatten frames tail := by
    intro pieces
    obtain ⟨tail, hframed, hlast⟩ := feedAll_framed pieces hstart
    rw [behind_of_le (Nat.zero_le limit), held_of_le (Nat.zero_le limit)] at hframed hlast
    exact ⟨_, tail, Prod.ext rfl hlast, hframed⟩
  obtain ⟨frames, tail, hfeed, hframed⟩ := hall pieces
  refine ⟨frames, behind limit tail, tail, hfeed, ?_, hframed, fun pieces' hpieces => ?_⟩
  · rw [feedAll?_eq hbounds, hfeed]
  · obtain ⟨frames', tail', hfeed', hframed'⟩ := hall pieces'
    rw [hpieces] at hframed'
    obtain ⟨rfl, hsame⟩ := hframed.agree hframed'
    exact ⟨frames', hfeed', hsame⟩

end Irc.Framer
