/-!
# The bytes of a text

Patterns and series keys look at a text as the list of bytes of its UTF-8
encoding, which `bytes` computes one character at a time. Reading goes the
other way through `ofBytes?`, which refuses a list that encodes no text.
-/

namespace MetricAgent.Text

def bytes (s : String) : List UInt8 := s.toList.flatMap String.utf8EncodeChar

def ofBytes? (bs : List UInt8) : Option String := String.fromUTF8? ⟨bs.toArray⟩

@[simp] theorem bytes_empty : bytes "" = [] := rfl

end MetricAgent.Text
