import Chip8.Proofs.Pictures
import Chip8.Screen.Sink

/-!
# Rendering into a bounded sink

A sink takes the pictures rendered into it one behind the other, up to its capacity.
`writeAll_of_le` and `writeAll_of_gt` say what writing all of a chunk comes to, however often it
is retried; a render is one such write and a flush if all of it was taken. `renderTimes_of_le` is
the induction over renders that fit, and `renderTimes_add` leaves the first one that does not.
-/

namespace Chip8

theorem byteArray_length_toList (bytes : ByteArray) : bytes.toList.length = bytes.size := by
  have hloop : ∀ n i taken, bytes.size - i = n →
      (ByteArray.toList.loop bytes i taken).length = n + taken.length := by
    intro n
    induction n with
    | zero =>
      intro i taken hn
      rw [ByteArray.toList.loop, if_neg (by omega), List.length_reverse, Nat.zero_add]
    | succ n ih =>
      intro i taken hn
      rw [ByteArray.toList.loop, if_pos (by omega), ih (i + 1) _ (by omega), List.length_cons]
      omega
  exact hloop bytes.size 0 [] rfl

theorem length_flatten_replicate {α : Type} (as : List α) (n : Nat) :
    (List.replicate n as).flatten.length = n * as.length := by
  rw [List.length_flatten, List.map_replicate, List.sum_replicate_nat]

theorem take_flatten_replicate {α : Type} (as : List α) {q r n : Nat} (hq : q < r)
    (hn : n ≤ as.length) :
    (List.replicate r as).flatten.take (q * as.length + n) =
      (List.replicate q as).flatten ++ as.take n := by
  obtain ⟨k, rfl⟩ := Nat.exists_eq_add_of_lt hq
  rw [Nat.add_assoc, List.replicate_add, List.flatten_append, ← length_flatten_replicate,
    List.take_length_add_append, List.replicate_succ, List.flatten_cons,
    List.take_append_of_le_length hn]

namespace Screen

/-- The bytes of the picture. -/
def pictureBytes (s : Screen) (g : Glyphs) : List UInt8 := (s.picture g).toUTF8.toList

theorem length_pictureBytes (s : Screen) (g : Glyphs) :
    (s.pictureBytes g).length = (s.picture g).toUTF8.size :=
  byteArray_length_toList _

theorem pictureBytes_pos (s : Screen) (g : Glyphs) : 0 < (s.pictureBytes g).length := by
  rw [length_pictureBytes, String.toUTF8_eq_toByteArray, String.size_toByteArray, picture,
    String.utf8ByteSize_ofList, utf8Len_pictureChars]
  exact Nat.succ_pos _

end Screen

namespace Sink

variable {s t : Sink} {chunk : List UInt8} {screen : Screen} {g : Glyphs}

/-- The sink with more bytes taken. -/
def taking (s : Sink) (taken : List UInt8) : Sink := { s with bytes := s.bytes ++ taken }

theorem taking_nil (s : Sink) : s.taking [] = s := by rw [taking, List.append_nil]

theorem room_taking (s : Sink) (taken : List UInt8) :
    (s.taking taken).room = s.room - taken.length := by
  rw [room, taking, List.length_append, room, Nat.sub_add_eq]

/-! ## One write -/

theorem writeAll_of_full (h : s.room = 0) (hchunk : chunk ≠ []) :
    s.writeAll chunk = (.error .stalled, s) := by
  cases chunk with
  | nil => exact absurd rfl hchunk
  | cons b rest =>
    have hwrite : s.write (b :: rest) = (0, s) := by
      rw [write, h]
      exact congrArg (Prod.mk 0) s.taking_nil
    rw [writeAll, hwrite]

theorem writeAll_of_le (h : chunk.length ≤ s.room) :
    s.writeAll chunk = (.ok (), s.taking chunk) := by
  cases chunk with
  | nil => rw [writeAll, taking_nil]
  | cons b rest =>
    have hwrite : s.write (b :: rest) = (rest.length + 1, s.taking (b :: rest)) := by
      rw [write, List.take_of_length_le h]
      rfl
    rw [writeAll, hwrite]
    show (s.taking (b :: rest)).writeAll (rest.drop rest.length) = _
    rw [List.drop_length, writeAll]

/-- What does not fit is written up to the capacity; the write behind that takes nothing. -/
theorem writeAll_of_gt (h : s.room < chunk.length) :
    s.writeAll chunk = (.error .stalled, s.taking (chunk.take s.room)) := by
  cases hroom : s.room with
  | zero =>
    rw [List.take_zero, taking_nil]
    exact writeAll_of_full hroom (List.ne_nil_of_length_pos (by omega))
  | succ n =>
    cases chunk with
    | nil => cases h
    | cons b rest =>
      have hlength : ((b :: rest).take (n + 1)).length = n + 1 :=
        List.length_take_of_le (by omega)
      have hwrite : s.write (b :: rest) = (n + 1, s.taking ((b :: rest).take (n + 1))) := by
        rw [write, hroom, hlength]
        rfl
      rw [writeAll, hwrite]
      refine writeAll_of_full ?_ ?_
      · rw [room_taking, hlength, hroom, Nat.sub_self]
      · rw [List.length_cons] at h
        exact List.ne_nil_of_length_pos (by rw [List.length_drop]; omega)

/-! ## One render -/

theorem render_of_le (h : (screen.pictureBytes g).length ≤ s.room) :
    s.render g screen = (.ok (), (s.taking (screen.pictureBytes g)).flush) := by
  have hwrite := writeAll_of_le h
  rw [Screen.pictureBytes] at hwrite
  rw [render, hwrite]
  rfl

/-- A render that fails does not flush. -/
theorem render_of_gt (h : s.room < (screen.pictureBytes g).length) :
    s.render g screen =
      (.error .stalled, s.taking ((screen.pictureBytes g).take s.room)) := by
  have hwrite := writeAll_of_gt h
  rw [Screen.pictureBytes] at hwrite
  rw [render, hwrite]
  rfl

/-! ## Renders -/

theorem renderTimes_succ_of_ok (h : s.render g screen = (.ok (), t)) (n : Nat) :
    s.renderTimes g screen (n + 1) = t.renderTimes g screen n := by
  rw [renderTimes, h]

theorem renderTimes_succ_of_error (h : s.render g screen = (.error .stalled, t)) (n : Nat) :
    s.renderTimes g screen (n + 1) = (.error .stalled, t) := by
  rw [renderTimes, h]

/-- The sink after renders that all fit. -/
def filled (s : Sink) (chunk : List UInt8) (n : Nat) : Sink :=
  { s with bytes := s.bytes ++ (List.replicate n chunk).flatten, flushes := s.flushes + n }

theorem filled_zero (s : Sink) (chunk : List UInt8) : s.filled chunk 0 = s := s.taking_nil

theorem filled_flush_taking (s : Sink) (chunk : List UInt8) (n : Nat) :
    (s.taking chunk).flush.filled chunk n = s.filled chunk (n + 1) := by
  simp only [filled, flush, taking, List.append_assoc, List.replicate_succ, List.flatten_cons,
    Sink.mk.injEq, true_and]
  omega

theorem room_filled (s : Sink) (chunk : List UInt8) (n : Nat) :
    (s.filled chunk n).room = s.room - n * chunk.length := by
  rw [room, filled, List.length_append, length_flatten_replicate, room, Nat.sub_add_eq]

theorem renderTimes_of_le {n : Nat} (h : n * (screen.pictureBytes g).length ≤ s.room) :
    s.renderTimes g screen n = (.ok (), s.filled (screen.pictureBytes g) n) := by
  induction n generalizing s with
  | zero => rw [renderTimes, filled_zero]
  | succ n ih =>
    rw [Nat.succ_mul] at h
    have hfirst : (screen.pictureBytes g).length ≤ s.room := by omega
    have hroom : (s.taking (screen.pictureBytes g)).flush.room =
        s.room - (screen.pictureBytes g).length := s.room_taking _
    rw [renderTimes_succ_of_ok (render_of_le hfirst), ih (by omega), filled_flush_taking]

theorem renderTimes_add {m : Nat} (h : s.renderTimes g screen m = (.ok (), t)) (n : Nat) :
    s.renderTimes g screen (m + n) = t.renderTimes g screen n := by
  induction m generalizing s with
  | zero =>
    cases h
    rw [Nat.zero_add]
  | succ m ih =>
    rw [Nat.succ_add]
    cases hfirst : s.render g screen with
    | mk reply u =>
      cases reply with
      | ok =>
        rw [renderTimes_succ_of_ok hfirst] at h ⊢
        exact ih h
      | error e =>
        cases e
        rw [renderTimes_succ_of_error hfirst] at h
        cases h

/-- Renders into an empty sink of which one does not fit: it is the first behind those that the
capacity holds, and it fills the sink with the start of its picture. -/
theorem renderTimes_of_gt {cap r : Nat} (h : cap < r * (screen.pictureBytes g).length) :
    let text := screen.pictureBytes g
    let t := (empty cap).filled text (cap / text.length)
    (empty cap).renderTimes g screen (cap / text.length) = (.ok (), t) ∧
      t.render g screen = (.error .stalled, t.taking (text.take (cap % text.length))) ∧
      (empty cap).renderTimes g screen r =
        (.error .stalled, t.taking (text.take (cap % text.length))) := by
  intro text t
  have hfit : (empty cap).renderTimes g screen (cap / text.length) = (.ok (), t) :=
    renderTimes_of_le (Nat.div_mul_le_self cap text.length)
  have hroom : t.room = cap % text.length := by
    rw [room_filled, Nat.mod_eq_sub, Nat.mul_comm]
    rfl
  have hpos : 0 < text.length := screen.pictureBytes_pos g
  have hfail : t.render g screen = (.error .stalled, t.taking (text.take (cap % text.length))) := by
    rw [render_of_gt (by rw [hroom]; exact Nat.mod_lt cap hpos), hroom]
  refine ⟨hfit, hfail, ?_⟩
  obtain ⟨k, rfl⟩ := Nat.exists_eq_add_of_lt ((Nat.div_lt_iff_lt_mul hpos).mpr h)
  rw [Nat.add_assoc, renderTimes_add hfit, renderTimes_succ_of_error hfail]

theorem bytes_renderTimes (screen : Screen) (g : Glyphs) (cap r : Nat) :
    ((empty cap).renderTimes g screen r).2.bytes =
      (List.replicate r (screen.pictureBytes g)).flatten.take
        (min cap (r * (screen.pictureBytes g).length)) := by
  rcases Nat.lt_or_ge cap (r * (screen.pictureBytes g).length) with hgt | hle
  · obtain ⟨-, -, hout⟩ := renderTimes_of_gt hgt
    have hpos := screen.pictureBytes_pos g
    have hfilled := take_flatten_replicate (screen.pictureBytes g)
      ((Nat.div_lt_iff_lt_mul hpos).mpr hgt) (Nat.le_of_lt (Nat.mod_lt cap hpos))
    rw [Nat.div_add_mod'] at hfilled
    rw [hout, Nat.min_eq_left (Nat.le_of_lt hgt), hfilled]
    rfl
  · rw [renderTimes_of_le hle, Nat.min_eq_right hle, ← length_flatten_replicate,
      List.take_length]
    rfl

theorem flushes_renderTimes (screen : Screen) (g : Glyphs) (cap r : Nat) :
    ((empty cap).renderTimes g screen r).2.flushes =
      min r (cap / (screen.pictureBytes g).length) := by
  rcases Nat.lt_or_ge cap (r * (screen.pictureBytes g).length) with hgt | hle
  · obtain ⟨-, -, hout⟩ := renderTimes_of_gt hgt
    have hlt := (Nat.div_lt_iff_lt_mul (screen.pictureBytes_pos g)).mpr hgt
    rw [hout, Nat.min_eq_right (Nat.le_of_lt hlt)]
    exact Nat.zero_add _
  · have hfit := (Nat.le_div_iff_mul_le (screen.pictureBytes_pos g)).mpr hle
    rw [renderTimes_of_le hle, Nat.min_eq_left hfit]
    exact Nat.zero_add _

theorem renderTimes_ok_iff (screen : Screen) (g : Glyphs) (cap r : Nat) :
    ((empty cap).renderTimes g screen r).1 = .ok () ↔
      r * (screen.pictureBytes g).length ≤ cap := by
  constructor
  · intro hok
    by_contra hgt
    obtain ⟨-, -, hout⟩ := renderTimes_of_gt (Nat.lt_of_not_le hgt)
    rw [hout] at hok
    cases hok
  · intro hle
    rw [renderTimes_of_le hle]

/-- Rendering a picture `r` times, up to the first failure, into an empty sink leaves there as much
of `r` copies of its bytes as the capacity holds. A render fails if and only if that is not all of
them; it is the first behind the `cap / L` renders that fit, where `L` is the size of the picture,
and each of those has flushed while the failed one has not. -/
theorem renders_fill_sink (screen : Screen) (g : Glyphs) (cap r : Nat) :
    let text := screen.pictureBytes g
    let out := (empty cap).renderTimes g screen r
    text.length = (screen.picture g).toUTF8.size ∧ 0 < text.length ∧
    out.2.bytes = (List.replicate r text).flatten.take (min cap (r * text.length)) ∧
    out.2.bytes.length = min cap (r * text.length) ∧
    (out.1 = .ok () ↔ r * text.length ≤ cap) ∧
    out.2.flushes = min r (cap / text.length) ∧
    (cap < r * text.length → ∃ t,
      (empty cap).renderTimes g screen (cap / text.length) = (.ok (), t) ∧
      t.render g screen = (.error .stalled, out.2) ∧ out.1 = .error .stalled ∧
      t.flushes = cap / text.length ∧ out.2.flushes = t.flushes) := by
  intro text out
  have hbytes := bytes_renderTimes screen g cap r
  refine ⟨screen.length_pictureBytes g, screen.pictureBytes_pos g, hbytes, ?_,
    renderTimes_ok_iff screen g cap r, flushes_renderTimes screen g cap r, fun hgt => ?_⟩
  · rw [hbytes, List.length_take, length_flatten_replicate, Nat.min_assoc, Nat.min_self]
  · obtain ⟨hfit, hfail, hout⟩ := renderTimes_of_gt hgt
    have hsink : out.2 = _ := congrArg Prod.snd hout
    rw [hsink]
    exact ⟨_, hfit, hfail, congrArg Prod.fst hout, Nat.zero_add _, rfl⟩

end Sink

end Chip8
