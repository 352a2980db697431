import MetricAgent.Metric.SeriesKey
import MetricAgent.Proofs.Lists

/-!
# What a series key is made of

A key is a hash, and two series may have the same one. What is hashed is not: read as
one list of bytes, it says what the name and the tags are (`SeriesKey.encoding_eq_iff`).
Each text ends with a mark that is the byte of no character, so it can be taken off
the front of the list, whatever it holds, line feeds included
(`Text.bytes_mark_inj`). What then follows is the end of the list or a separator, which
says whether there is another tag.

The writes are the same for any hash (`SeriesKey.Hasher`). The keys come of one of them
(`Hasher.words`), and the list of bytes of another one, which hashes nothing and keeps
what it is given (`Hasher.transcript`).
-/

namespace MetricAgent

namespace Text

/-- The bytes of a text are those that it is stored as. -/
theorem toByteArray_bytes (s : String) : (bytes s).toByteArray = s.toByteArray :=
  String.utf8Encode_toList

theorem bytes_injective : Function.Injective bytes := by
  intro s t h
  rw [← String.toByteArray_inj, ← toByteArray_bytes, ← toByteArray_bytes, h]

theorem toNat_lt_of_mem_utf8EncodeChar {c : Char} {b : UInt8}
    (h : b ∈ String.utf8EncodeChar c) : b.toNat < 0xf8 := by
  unfold String.utf8EncodeChar at h
  dsimp only at h
  generalize c.val.toNat = v at h
  -- The greatest bytes are the first ones of four.
  repeat' split at h
  all_goals
    simp only [List.mem_cons, List.not_mem_nil, or_false] at h
    rcases h with rfl | rfl | rfl | rfl
    all_goals
      rw [UInt8.toNat_ofNat']
      omega

theorem mark_not_mem_bytes (s : String) : 0xff ∉ bytes s := by
  intro h
  obtain ⟨c, -, hc⟩ := List.mem_flatMap.1 h
  exact absurd (toNat_lt_of_mem_utf8EncodeChar hc) (by decide)

/-- A text with its mark can be taken off the front, in one way only. -/
theorem bytes_mark_inj {s t : String} {us vs : List UInt8} :
    bytes s ++ 0xff :: us = bytes t ++ 0xff :: vs ↔ s = t ∧ us = vs := by
  rw [append_cons_inj_of_not_mem (mark_not_mem_bytes s) (mark_not_mem_bytes t),
    bytes_injective.eq_iff]

end Text

namespace SeriesKey

/-! ### What is given to a hash -/

/-- A hash that takes bytes, some in a row or one by itself. -/
structure Hasher (σ : Type) where
  bytes : σ → List UInt8 → σ
  byte : σ → UInt8 → σ

namespace Hasher

variable {σ : Type} (H : Hasher σ)

/-- Takes a write: a text in a row and then its mark, a separator as one byte. -/
def write (s : σ) : Write → σ
  | .text t => H.byte (H.bytes s (Text.bytes t)) 0xff
  | .separator => H.byte s 0x0a

def series (s : σ) (m : Metric) : σ := (writes m.name m.tags).foldl H.write s

def words : Hasher UInt64 := ⟨absorbBytes, fun h b => absorb h b.toUInt64⟩

/-- What keeps all bytes that it is given. -/
def transcript : Hasher (List UInt8) := ⟨fun kept bs => kept ++ bs, fun kept b => kept ++ [b]⟩

theorem words_write : words.write = absorbWrite := by
  funext h w
  cases w <;> rfl

theorem series_words (m : Metric) : words.series 0 m = m.seriesKey := by
  rw [series, words_write]
  rfl

theorem transcript_write (kept : List UInt8) (w : Write) :
    transcript.write kept w = kept ++ w.bytes := by
  cases w with
  | text t => exact List.append_assoc _ _ _
  | separator => rfl

theorem series_transcript (m : Metric) : transcript.series [] m = encoding m.name m.tags := by
  have hfold : ∀ (ws : List Write) (kept : List UInt8),
      ws.foldl transcript.write kept = kept ++ ws.flatMap Write.bytes := by
    intro ws
    induction ws with
    | nil => exact fun kept => (List.append_nil kept).symm
    | cons w ws ih =>
        intro kept
        rw [List.foldl_cons, ih, transcript_write, List.flatMap_cons, List.append_assoc]
  exact (hfold _ _).trans (List.nil_append _)

end Hasher

/-! ### Taking the writes apart -/

theorem encoding_eq (name : String) (tags : Tags) :
    encoding name tags = Text.bytes name ++ 0xff :: (tagWrites tags).flatMap Write.bytes := by
  simp [encoding, writes, Write.bytes]

theorem flatMap_tagWrites_cons (key value : String) (rest : Tags) :
    (tagWrites ((key, value) :: rest)).flatMap Write.bytes =
      0x0a :: (Text.bytes key ++ 0xff :: 0x0a ::
        (Text.bytes value ++ 0xff :: (tagWrites rest).flatMap Write.bytes)) := by
  simp [Write.bytes]

/-- The tags can be told from what is written for them, how many there are included. -/
theorem flatMap_tagWrites_injective :
    Function.Injective fun tags => (tagWrites tags).flatMap Write.bytes := by
  intro tags
  induction tags with
  | nil =>
      rintro (_ | ⟨⟨key, value⟩, rest⟩) h
      · rfl
      · dsimp only at h
        rw [flatMap_tagWrites_cons] at h
        cases h
  | cons tag tags ih =>
      obtain ⟨key, value⟩ := tag
      rintro (_ | ⟨⟨key', value'⟩, rest⟩) h
      · dsimp only at h
        rw [flatMap_tagWrites_cons] at h
        cases h
      · dsimp only at h
        rw [flatMap_tagWrites_cons, flatMap_tagWrites_cons] at h
        obtain ⟨rfl, hvalue⟩ := Text.bytes_mark_inj.1 (List.cons.inj h).2
        obtain ⟨rfl, hrest⟩ := Text.bytes_mark_inj.1 (List.cons.inj hvalue).2
        rw [ih hrest]

/-- A key is a hash of bytes that say what the name and the tags are. -/
theorem encoding_eq_iff (m n : Metric) :
    Hasher.words.series 0 m = m.seriesKey ∧
    Hasher.transcript.series [] m = encoding m.name m.tags ∧
    (encoding m.name m.tags = encoding n.name n.tags ↔ m.name = n.name ∧ m.tags = n.tags) := by
  refine ⟨Hasher.series_words m, Hasher.series_transcript m, ?_, fun h => by rw [h.1, h.2]⟩
  rw [encoding_eq, encoding_eq, Text.bytes_mark_inj]
  exact fun h => ⟨h.1, flatMap_tagWrites_injective h.2⟩

end SeriesKey

end MetricAgent
