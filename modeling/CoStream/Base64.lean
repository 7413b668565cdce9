import CoStream.StringEx

namespace CoStream

def base64Chars : Bytes := ascii "ABCDEFGHIJKLMNOPQRSTUVWXYZabcdefghijklmnopqrstuvwxyz0123456789+/"

def base64Char (index : UInt8) : UInt8 := base64Chars.getD index.toNat 0

-- char_array_4, for the three bytes of char_array_3.
def base64Indices (a b c : UInt8) : Bytes := [
  (a &&& 0xfc) >>> 2,
  ((a &&& 0x03) <<< 4)+((b &&& 0xf0) >>> 4),
  ((b &&& 0x0f) <<< 2)+((c &&& 0xc0) >>> 6),
  c &&& 0x3f]

-- A last group of fewer bytes is filled up with zeroes, and '=' stands for the
-- characters that these alone would give.
def base64Encode : Bytes → Bytes
  | [] => []
  | [a] => (base64Indices a 0 0 |>.take 2).map base64Char++ascii "=="
  | [a,b] => (base64Indices a b 0 |>.take 3).map base64Char++ascii "="
  | a::b::c::rest => (base64Indices a b c).map base64Char++base64Encode rest

theorem base64Char_clear (index : UInt8) : base64Char index ≠ 13 :=
  Foundation.forall_byte (base64Char · ≠ 13) (by decide +kernel) index

theorem base64Encode_clear (data : Bytes) : 13 ∉ base64Encode data := by
  have padded : ∀ indices padding : Bytes, 13 ∉ padding → 13 ∉ indices.map base64Char++padding := by
    intro indices padding clear present
    rcases List.mem_append.mp present with mapped | added
    · obtain ⟨index,-,same⟩ := List.mem_map.mp mapped
      exact base64Char_clear index same
    · exact clear added
  fun_induction base64Encode data with
  | case1 => decide
  | case2 a => exact padded _ _ (by decide)
  | case3 a b => exact padded _ _ (by decide)
  | case4 a b c rest ih => exact padded _ _ ih

end CoStream
