/-
# Sources of bytes

Bytes that are the UTF-8 form of a text are read as the text is, so places are counted in
characters.  Other bytes are refused before anything is read, with the first place where they are
no longer a text.
-/
import MiniLisp.Proofs.Text.Decode
import MiniLisp.Reader.Command

namespace MiniLisp.Reader

open Text.Utf8

/-- The answers to some steps from the start of a source, each with the place after it. -/
def Source.steps (source : Source) (commands : List Command) :
    Except ReadError (List (Reply × Cursor)) :=
  source.open?.map (performAll · commands)

/-- The UTF-8 form of a text as a list of bytes. -/
lemma encode_toList (s : String) : encode s.toList = s.toUTF8.data.toList := by
  have h : s.toUTF8 = (encode s.toList).toByteArray := by
    conv => lhs; rw [← String.ofList_toList (s := s)]
    rfl
  rw [h, List.toList_data_toByteArray]

/-- Bytes that are the UTF-8 form of a text have its start. -/
lemma open?_bytes {utf8 : List UInt8} {s : String} (h : utf8 = s.toUTF8.data.toList) :
    (Source.bytes utf8).open? = (Source.text s).open? := by
  have hdecode : decode utf8 = .ok s.toList := by rw [h, ← encode_toList, decode_encode]
  have hopen : (Source.bytes utf8).open? = .ok (.start s.toList) := by rw [Source.open?, hdecode]
  exact hopen

lemma parse_of_open?_eq_error {source : Source} {e : ReadError} (h : source.open? = .error e) :
    parse source = .error e := by
  rw [parse, h]

lemma parse_congr {source source' : Source} (h : source.open? = source'.open?) :
    parse source = parse source' := by
  rw [parse, parse, h]

lemma message_eq_iff {reason : Reason} :
    reason.message = "unexpected end of data" ↔ reason = .unexpectedEnd := by
  cases reason <;> decide

/--
**Bytes are read as the text that they are the UTF-8 form of, step by step and with places counted
in characters; if they are not the UTF-8 form of a text nothing is read.**  Then the error, whatever
the steps, is a fault at the greatest place up to which the bytes are a text, and it is the
unexpected end of the bytes exactly if they end within a character, which is exactly if more bytes
can make them a text.
-/
theorem bytes_read_as_their_text (utf8 : List UInt8) :
    (∀ s : String, utf8 = s.toUTF8.data.toList →
      parse (.bytes utf8) = parse (.text s) ∧
      ∀ commands, (Source.bytes utf8).steps commands = (Source.text s).steps commands) ∧
    ((∀ s : String, utf8 ≠ s.toUTF8.data.toList) →
      ∃ fault, parse (.bytes utf8) = .error (.invalidUtf8 fault) ∧
        (∀ commands, (Source.bytes utf8).steps commands = .error (.invalidUtf8 fault)) ∧
        IsFaultOf utf8 fault ∧
        (fault.reason.message = "unexpected end of data" ↔
          ∃ c more, more ≠ [] ∧ utf8.drop fault.start ++ more = String.utf8EncodeChar c) ∧
        (fault.reason.message = "unexpected end of data" ↔
          ∃ more, ∃ s : String, utf8 ++ more = s.toUTF8.data.toList)) := by
  refine ⟨fun s hs => ?_, fun hinvalid => ?_⟩
  · have hopen := open?_bytes hs
    exact ⟨parse_congr hopen, fun commands => by rw [Source.steps, Source.steps, hopen]⟩
  · have htext : ∀ chars, encode chars = (String.ofList chars).toUTF8.data.toList := fun chars => by
      rw [← encode_toList, String.toList_ofList]
    rcases decode_cases utf8 with ⟨chars, hvalid, -⟩ | ⟨-, fault, hdecode, hfault⟩
    · exact absurd (hvalid.trans (htext chars)) (hinvalid _)
    · have hopen : (Source.bytes utf8).open? = .error (.invalidUtf8 fault) := by
        rw [Source.open?, hdecode]
      refine ⟨fault, parse_of_open?_eq_error hopen, fun commands => ?_, hfault, ?_, ?_⟩
      · rw [Source.steps, hopen]
        rfl
      · rw [message_eq_iff, hfault.ends_iff]
      · rw [message_eq_iff, hfault.repairable_iff]
        refine exists_congr fun more => ⟨?_, ?_⟩
        · rintro ⟨chars, hmore⟩
          exact ⟨_, hmore.trans (htext chars)⟩
        · rintro ⟨s, hmore⟩
          exact ⟨_, hmore.trans (encode_toList s).symm⟩

end MiniLisp.Reader
