import CoStream.StringEx
import CoStream.Foundation.Crc

namespace CoStream
open Foundation Foundation.Crc

-- A table of at least 256 words: no byte points outside of it.
structure CrcTable where
  words : List (BitVec 32)
  filled : 256 ≤ words.length

def CrcTable.word (table : CrcTable) (index : Nat) (inside : index < 256) : BitVec 32 :=
  table.words.get ⟨index,Nat.lt_of_lt_of_le inside table.filled⟩

theorem masked_inside (word : BitVec 32) : (word &&& 0xFF).toNat < 256 := by
  have below : (word &&& 0xFF).toNat ≤ 255 := by
    rw [BitVec.toNat_and]
    exact Nat.and_le_right
  omega

namespace ByteCrypto

def crc32Words : List (BitVec 32) := [
  0x00000000,0x77073096,0xee0e612c,0x990951ba,0x076dc419,0x706af48f,0xe963a535,0x9e6495a3,
  0x0edb8832,0x79dcb8a4,0xe0d5e91e,0x97d2d988,0x09b64c2b,0x7eb17cbd,0xe7b82d07,0x90bf1d91,
  0x1db71064,0x6ab020f2,0xf3b97148,0x84be41de,0x1adad47d,0x6ddde4eb,0xf4d4b551,0x83d385c7,
  0x136c9856,0x646ba8c0,0xfd62f97a,0x8a65c9ec,0x14015c4f,0x63066cd9,0xfa0f3d63,0x8d080df5,
  0x3b6e20c8,0x4c69105e,0xd56041e4,0xa2677172,0x3c03e4d1,0x4b04d447,0xd20d85fd,0xa50ab56b,
  0x35b5a8fa,0x42b2986c,0xdbbbc9d6,0xacbcf940,0x32d86ce3,0x45df5c75,0xdcd60dcf,0xabd13d59,
  0x26d930ac,0x51de003a,0xc8d75180,0xbfd06116,0x21b4f4b5,0x56b3c423,0xcfba9599,0xb8bda50f,
  0x2802b89e,0x5f058808,0xc60cd9b2,0xb10be924,0x2f6f7c87,0x58684c11,0xc1611dab,0xb6662d3d,
  0x76dc4190,0x01db7106,0x98d220bc,0xefd5102a,0x71b18589,0x06b6b51f,0x9fbfe4a5,0xe8b8d433,
  0x7807c9a2,0x0f00f934,0x9609a88e,0xe10e9818,0x7f6a0dbb,0x086d3d2d,0x91646c97,0xe6635c01,
  0x6b6b51f4,0x1c6c6162,0x856530d8,0xf262004e,0x6c0695ed,0x1b01a57b,0x8208f4c1,0xf50fc457,
  0x65b0d9c6,0x12b7e950,0x8bbeb8ea,0xfcb9887c,0x62dd1ddf,0x15da2d49,0x8cd37cf3,0xfbd44c65,
  0x4db26158,0x3ab551ce,0xa3bc0074,0xd4bb30e2,0x4adfa541,0x3dd895d7,0xa4d1c46d,0xd3d6f4fb,
  0x4369e96a,0x346ed9fc,0xad678846,0xda60b8d0,0x44042d73,0x33031de5,0xaa0a4c5f,0xdd0d7cc9,
  0x5005713c,0x270241aa,0xbe0b1010,0xc90c2086,0x5768b525,0x206f85b3,0xb966d409,0xce61e49f,
  0x5edef90e,0x29d9c998,0xb0d09822,0xc7d7a8b4,0x59b33d17,0x2eb40d81,0xb7bd5c3b,0xc0ba6cad,
  0xedb88320,0x9abfb3b6,0x03b6e20c,0x74b1d29a,0xead54739,0x9dd277af,0x04db2615,0x73dc1683,
  0xe3630b12,0x94643b84,0x0d6d6a3e,0x7a6a5aa8,0xe40ecf0b,0x9309ff9d,0x0a00ae27,0x7d079eb1,
  0xf00f9344,0x8708a3d2,0x1e01f268,0x6906c2fe,0xf762575d,0x806567cb,0x196c3671,0x6e6b06e7,
  0xfed41b76,0x89d32be0,0x10da7a5a,0x67dd4acc,0xf9b9df6f,0x8ebeeff9,0x17b7be43,0x60b08ed5,
  0xd6d6a3e8,0xa1d1937e,0x38d8c2c4,0x4fdff252,0xd1bb67f1,0xa6bc5767,0x3fb506dd,0x48b2364b,
  0xd80d2bda,0xaf0a1b4c,0x36034af6,0x41047a60,0xdf60efc3,0xa867df55,0x316e8eef,0x4669be79,
  0xcb61b38c,0xbc66831a,0x256fd2a0,0x5268e236,0xcc0c7795,0xbb0b4703,0x220216b9,0x5505262f,
  0xc5ba3bbe,0xb2bd0b28,0x2bb45a92,0x5cb36a04,0xc2d7ffa7,0xb5d0cf31,0x2cd99e8b,0x5bdeae1d,
  0x9b64c2b0,0xec63f226,0x756aa39c,0x026d930a,0x9c0906a9,0xeb0e363f,0x72076785,0x05005713,
  0x95bf4a82,0xe2b87a14,0x7bb12bae,0x0cb61b38,0x92d28e9b,0xe5d5be0d,0x7cdcefb7,0x0bdbdf21,
  0x86d3d2d4,0xf1d4e242,0x68ddb3f8,0x1fda836e,0x81be16cd,0xf6b9265b,0x6fb077e1,0x18b74777,
  0x88085ae6,0xff0f6a70,0x66063bca,0x11010b5c,0x8f659eff,0xf862ae69,0x616bffd3,0x166ccf45,
  0xa00ae278,0xd70dd2ee,0x4e048354,0x3903b3c2,0xa7672661,0xd06016f7,0x4969474d,0x3e6e77db,
  0xaed16a4a,0xd9d65adc,0x40df0b66,0x37d83bf0,0xa9bcae53,0xdebb9ec5,0x47b2cf7f,0x30b5ffe9,
  0xbdbdf21c,0xcabac28a,0x53b39330,0x24b4a3a6,0xbad03605,0xcdd70693,0x54de5729,0x23d967bf,
  0xb3667a2e,0xc4614ab8,0x5d681b02,0x2a6f2b94,0xb40bbe37,0xc30c8ea1,0x5a05df1b,0x2d02ef8d]

def crc32Table : CrcTable := ⟨crc32Words,by decide +kernel⟩

-- GetCrc32, for a text and for a text behind a start value.
def getCrc32 (data : Bytes) : BitVec 32 :=
  data.foldl (fun (crc : BitVec 32) byte => crc32Table.word ((crc ^^^ byte.toBitVec.setWidth 32) &&& 0xFF).toNat (masked_inside _) ^^^
    crc >>> 8) 0xFFFFFFFF ^^^ ~~~0
def getCrc32From (crc : BitVec 32) (data : Bytes) : BitVec 32 :=
  data.foldl (fun crc byte => crc32Table.word (crc.setWidth 8 ^^^ byte.toBitVec).toNat (BitVec.isLt _) ^^^ crc >>> 8) crc

end ByteCrypto

-- The words of crc.cpp. Each table has one more than a byte can reach.
def crc32IeeeWords : List (BitVec 32) := [
  0x00000000,0xb71dc104,0x6e3b8209,0xd926430d,0xdc760413,0x6b6bc517,0xb24d861a,0x0550471e,
  0xb8ed0826,0x0ff0c922,0xd6d68a2f,0x61cb4b2b,0x649b0c35,0xd386cd31,0x0aa08e3c,0xbdbd4f38,
  0x70db114c,0xc7c6d048,0x1ee09345,0xa9fd5241,0xacad155f,0x1bb0d45b,0xc2969756,0x758b5652,
  0xc836196a,0x7f2bd86e,0xa60d9b63,0x11105a67,0x14401d79,0xa35ddc7d,0x7a7b9f70,0xcd665e74,
  0xe0b62398,0x57abe29c,0x8e8da191,0x39906095,0x3cc0278b,0x8bdde68f,0x52fba582,0xe5e66486,
  0x585b2bbe,0xef46eaba,0x3660a9b7,0x817d68b3,0x842d2fad,0x3330eea9,0xea16ada4,0x5d0b6ca0,
  0x906d32d4,0x2770f3d0,0xfe56b0dd,0x494b71d9,0x4c1b36c7,0xfb06f7c3,0x2220b4ce,0x953d75ca,
  0x28803af2,0x9f9dfbf6,0x46bbb8fb,0xf1a679ff,0xf4f63ee1,0x43ebffe5,0x9acdbce8,0x2dd07dec,
  0x77708634,0xc06d4730,0x194b043d,0xae56c539,0xab068227,0x1c1b4323,0xc53d002e,0x7220c12a,
  0xcf9d8e12,0x78804f16,0xa1a60c1b,0x16bbcd1f,0x13eb8a01,0xa4f64b05,0x7dd00808,0xcacdc90c,
  0x07ab9778,0xb0b6567c,0x69901571,0xde8dd475,0xdbdd936b,0x6cc0526f,0xb5e61162,0x02fbd066,
  0xbf469f5e,0x085b5e5a,0xd17d1d57,0x6660dc53,0x63309b4d,0xd42d5a49,0x0d0b1944,0xba16d840,
  0x97c6a5ac,0x20db64a8,0xf9fd27a5,0x4ee0e6a1,0x4bb0a1bf,0xfcad60bb,0x258b23b6,0x9296e2b2,
  0x2f2bad8a,0x98366c8e,0x41102f83,0xf60dee87,0xf35da999,0x4440689d,0x9d662b90,0x2a7bea94,
  0xe71db4e0,0x500075e4,0x892636e9,0x3e3bf7ed,0x3b6bb0f3,0x8c7671f7,0x555032fa,0xe24df3fe,
  0x5ff0bcc6,0xe8ed7dc2,0x31cb3ecf,0x86d6ffcb,0x8386b8d5,0x349b79d1,0xedbd3adc,0x5aa0fbd8,
  0xeee00c69,0x59fdcd6d,0x80db8e60,0x37c64f64,0x3296087a,0x858bc97e,0x5cad8a73,0xebb04b77,
  0x560d044f,0xe110c54b,0x38368646,0x8f2b4742,0x8a7b005c,0x3d66c158,0xe4408255,0x535d4351,
  0x9e3b1d25,0x2926dc21,0xf0009f2c,0x471d5e28,0x424d1936,0xf550d832,0x2c769b3f,0x9b6b5a3b,
  0x26d61503,0x91cbd407,0x48ed970a,0xfff0560e,0xfaa01110,0x4dbdd014,0x949b9319,0x2386521d,
  0x0e562ff1,0xb94beef5,0x606dadf8,0xd7706cfc,0xd2202be2,0x653deae6,0xbc1ba9eb,0x0b0668ef,
  0xb6bb27d7,0x01a6e6d3,0xd880a5de,0x6f9d64da,0x6acd23c4,0xddd0e2c0,0x04f6a1cd,0xb3eb60c9,
  0x7e8d3ebd,0xc990ffb9,0x10b6bcb4,0xa7ab7db0,0xa2fb3aae,0x15e6fbaa,0xccc0b8a7,0x7bdd79a3,
  0xc660369b,0x717df79f,0xa85bb492,0x1f467596,0x1a163288,0xad0bf38c,0x742db081,0xc3307185,
  0x99908a5d,0x2e8d4b59,0xf7ab0854,0x40b6c950,0x45e68e4e,0xf2fb4f4a,0x2bdd0c47,0x9cc0cd43,
  0x217d827b,0x9660437f,0x4f460072,0xf85bc176,0xfd0b8668,0x4a16476c,0x93300461,0x242dc565,
  0xe94b9b11,0x5e565a15,0x87701918,0x306dd81c,0x353d9f02,0x82205e06,0x5b061d0b,0xec1bdc0f,
  0x51a69337,0xe6bb5233,0x3f9d113e,0x8880d03a,0x8dd09724,0x3acd5620,0xe3eb152d,0x54f6d429,
  0x7926a9c5,0xce3b68c1,0x171d2bcc,0xa000eac8,0xa550add6,0x124d6cd2,0xcb6b2fdf,0x7c76eedb,
  0xc1cba1e3,0x76d660e7,0xaff023ea,0x18ede2ee,0x1dbda5f0,0xaaa064f4,0x738627f9,0xc49be6fd,
  0x09fdb889,0xbee0798d,0x67c63a80,0xd0dbfb84,0xd58bbc9a,0x62967d9e,0xbbb03e93,0x0cadff97,
  0xb110b0af,0x060d71ab,0xdf2b32a6,0x6836f3a2,0x6d66b4bc,0xda7b75b8,0x035d36b5,0xb440f7b1,
  0x00000001]

def crc32IeeeLeWords : List (BitVec 32) := [
  0x00000000,0x77073096,0xee0e612c,0x990951ba,0x076dc419,0x706af48f,0xe963a535,0x9e6495a3,
  0x0edb8832,0x79dcb8a4,0xe0d5e91e,0x97d2d988,0x09b64c2b,0x7eb17cbd,0xe7b82d07,0x90bf1d91,
  0x1db71064,0x6ab020f2,0xf3b97148,0x84be41de,0x1adad47d,0x6ddde4eb,0xf4d4b551,0x83d385c7,
  0x136c9856,0x646ba8c0,0xfd62f97a,0x8a65c9ec,0x14015c4f,0x63066cd9,0xfa0f3d63,0x8d080df5,
  0x3b6e20c8,0x4c69105e,0xd56041e4,0xa2677172,0x3c03e4d1,0x4b04d447,0xd20d85fd,0xa50ab56b,
  0x35b5a8fa,0x42b2986c,0xdbbbc9d6,0xacbcf940,0x32d86ce3,0x45df5c75,0xdcd60dcf,0xabd13d59,
  0x26d930ac,0x51de003a,0xc8d75180,0xbfd06116,0x21b4f4b5,0x56b3c423,0xcfba9599,0xb8bda50f,
  0x2802b89e,0x5f058808,0xc60cd9b2,0xb10be924,0x2f6f7c87,0x58684c11,0xc1611dab,0xb6662d3d,
  0x76dc4190,0x01db7106,0x98d220bc,0xefd5102a,0x71b18589,0x06b6b51f,0x9fbfe4a5,0xe8b8d433,
  0x7807c9a2,0x0f00f934,0x9609a88e,0xe10e9818,0x7f6a0dbb,0x086d3d2d,0x91646c97,0xe6635c01,
  0x6b6b51f4,0x1c6c6162,0x856530d8,0xf262004e,0x6c0695ed,0x1b01a57b,0x8208f4c1,0xf50fc457,
  0x65b0d9c6,0x12b7e950,0x8bbeb8ea,0xfcb9887c,0x62dd1ddf,0x15da2d49,0x8cd37cf3,0xfbd44c65,
  0x4db26158,0x3ab551ce,0xa3bc0074,0xd4bb30e2,0x4adfa541,0x3dd895d7,0xa4d1c46d,0xd3d6f4fb,
  0x4369e96a,0x346ed9fc,0xad678846,0xda60b8d0,0x44042d73,0x33031de5,0xaa0a4c5f,0xdd0d7cc9,
  0x5005713c,0x270241aa,0xbe0b1010,0xc90c2086,0x5768b525,0x206f85b3,0xb966d409,0xce61e49f,
  0x5edef90e,0x29d9c998,0xb0d09822,0xc7d7a8b4,0x59b33d17,0x2eb40d81,0xb7bd5c3b,0xc0ba6cad,
  0xedb88320,0x9abfb3b6,0x03b6e20c,0x74b1d29a,0xead54739,0x9dd277af,0x04db2615,0x73dc1683,
  0xe3630b12,0x94643b84,0x0d6d6a3e,0x7a6a5aa8,0xe40ecf0b,0x9309ff9d,0x0a00ae27,0x7d079eb1,
  0xf00f9344,0x8708a3d2,0x1e01f268,0x6906c2fe,0xf762575d,0x806567cb,0x196c3671,0x6e6b06e7,
  0xfed41b76,0x89d32be0,0x10da7a5a,0x67dd4acc,0xf9b9df6f,0x8ebeeff9,0x17b7be43,0x60b08ed5,
  0xd6d6a3e8,0xa1d1937e,0x38d8c2c4,0x4fdff252,0xd1bb67f1,0xa6bc5767,0x3fb506dd,0x48b2364b,
  0xd80d2bda,0xaf0a1b4c,0x36034af6,0x41047a60,0xdf60efc3,0xa867df55,0x316e8eef,0x4669be79,
  0xcb61b38c,0xbc66831a,0x256fd2a0,0x5268e236,0xcc0c7795,0xbb0b4703,0x220216b9,0x5505262f,
  0xc5ba3bbe,0xb2bd0b28,0x2bb45a92,0x5cb36a04,0xc2d7ffa7,0xb5d0cf31,0x2cd99e8b,0x5bdeae1d,
  0x9b64c2b0,0xec63f226,0x756aa39c,0x026d930a,0x9c0906a9,0xeb0e363f,0x72076785,0x05005713,
  0x95bf4a82,0xe2b87a14,0x7bb12bae,0x0cb61b38,0x92d28e9b,0xe5d5be0d,0x7cdcefb7,0x0bdbdf21,
  0x86d3d2d4,0xf1d4e242,0x68ddb3f8,0x1fda836e,0x81be16cd,0xf6b9265b,0x6fb077e1,0x18b74777,
  0x88085ae6,0xff0f6a70,0x66063bca,0x11010b5c,0x8f659eff,0xf862ae69,0x616bffd3,0x166ccf45,
  0xa00ae278,0xd70dd2ee,0x4e048354,0x3903b3c2,0xa7672661,0xd06016f7,0x4969474d,0x3e6e77db,
  0xaed16a4a,0xd9d65adc,0x40df0b66,0x37d83bf0,0xa9bcae53,0xdebb9ec5,0x47b2cf7f,0x30b5ffe9,
  0xbdbdf21c,0xcabac28a,0x53b39330,0x24b4a3a6,0xbad03605,0xcdd70693,0x54de5729,0x23d967bf,
  0xb3667a2e,0xc4614ab8,0x5d681b02,0x2a6f2b94,0xb40bbe37,0xc30c8ea1,0x5a05df1b,0x2d02ef8d,
  0x00000001]

def crc32Ieee : CrcTable := ⟨crc32IeeeWords,by decide +kernel⟩
def crc32IeeeLe : CrcTable := ⟨crc32IeeeLeWords,by decide +kernel⟩

def getCrc32 (crcTable : CrcTable) (crc : BitVec 32) (data : Bytes) : BitVec 32 :=
  data.foldl (fun crc byte => crcTable.word (crc.setWidth 8 ^^^ byte.toBitVec).toNat (BitVec.isLt _) ^^^ crc >>> 8) crc

def CrcTable.entry (table : CrcTable) (byte : UInt8) : BitVec 32 := table.word byte.toNat byte.toNat_lt

theorem entry_of_words {table : CrcTable} {f : UInt8 → BitVec 32}
    (words : table.words.take 256 = (List.range 256).map fun n => f (UInt8.ofNat n)) (byte : UInt8) :
    table.entry byte = f byte := by
  have below := byte.toNat_lt
  have first : (table.words.take 256)[byte.toNat]? = some (table.entry byte) := by
    rw [List.getElem?_take_of_lt below]
    exact List.getElem?_eq_getElem _
  have second : ((List.range 256).map fun n => f (UInt8.ofNat n))[byte.toNat]? = some (f byte) := by
    rw [List.getElem?_map,List.getElem?_range below,Option.map_some,UInt8.ofNat_toNat]
  rw [words,second] at first
  exact (Option.some.inj first).symm

-- Every word of the three tables, checked against the definition by bits.
theorem crc32Table_exact (byte : UInt8) : ByteCrypto.crc32Table.entry byte = reflected 0xEDB88320#32 0#32 [byte] :=
  entry_of_words (f := fun byte => reflected 0xEDB88320#32 0#32 [byte]) (by decide +kernel) byte

theorem crc32IeeeLe_exact (byte : UInt8) : crc32IeeeLe.entry byte = reflected 0xEDB88320#32 0#32 [byte] :=
  entry_of_words (f := fun byte => reflected 0xEDB88320#32 0#32 [byte]) (by decide +kernel) byte

theorem crc32Ieee_exact (byte : UInt8) : crc32Ieee.entry byte = bswap32 (highestFirst 0x04C11DB7#32 0#32 [byte]) :=
  entry_of_words (f := fun byte => bswap32 (highestFirst 0x04C11DB7#32 0#32 [byte])) (by decide +kernel) byte

-- The loops are the table-driven one. Masking the low byte is cutting it out.
theorem getCrc32_driven (table : CrcTable) (crc : BitVec 32) (data : Bytes) :
    getCrc32 table crc data = tableDriven table.entry crc data := rfl

theorem getCrc32From_driven (crc : BitVec 32) (data : Bytes) :
    ByteCrypto.getCrc32From crc data = tableDriven ByteCrypto.crc32Table.entry crc data := rfl

theorem masked_low (crc : BitVec 32) (byte : UInt8) :
    ((crc ^^^ byte.toBitVec.setWidth 32) &&& 0xFF).toNat = (lowByte crc ^^^ byte).toNat := by
  have cut : (crc ^^^ byte.toBitVec.setWidth 32).setWidth 8 = crc.setWidth 8 ^^^ byte.toBitVec := by
    apply BitVec.eq_of_getLsbD_eq
    intro i inside
    simp [inside]
  have low : ((crc ^^^ byte.toBitVec.setWidth 32) &&& 0xFF).toNat = ((crc ^^^ byte.toBitVec.setWidth 32).setWidth 8).toNat := by
    rw [BitVec.toNat_and,BitVec.toNat_setWidth]
    exact Nat.and_two_pow_sub_one_eq_mod _ 8
  rw [low,cut]
  rfl

theorem getCrc32_complement (data : Bytes) :
    ByteCrypto.getCrc32 data = ~~~(tableDriven ByteCrypto.crc32Table.entry 0xFFFFFFFF#32 data) := by
  have same : (fun (crc : BitVec 32) byte => ByteCrypto.crc32Table.word ((crc ^^^ byte.toBitVec.setWidth 32) &&& 0xFF).toNat
      (masked_inside _) ^^^ crc >>> 8) = fun crc byte => ByteCrypto.crc32Table.entry (lowByte crc ^^^ byte) ^^^ crc >>> 8 := by
    funext crc byte
    unfold CrcTable.entry
    congr 2
    exact masked_low crc byte
  unfold ByteCrypto.getCrc32 tableDriven
  rw [same]
  exact BitVec.xor_allOnes

section
variable (c : BitVec 32) (d : Bytes)

theorem getCrc32From_reflected : ByteCrypto.getCrc32From c d = reflected 0xEDB88320#32 c d := by
  rw [getCrc32From_driven]
  exact tableDriven_reflected _ _ crc32Table_exact d

theorem getCrc32_le : getCrc32 crc32IeeeLe c d = reflected 0xEDB88320#32 c d := by
  rw [getCrc32_driven]
  exact tableDriven_reflected _ _ crc32IeeeLe_exact d

theorem getCrc32_start : ByteCrypto.getCrc32 d = ~~~(reflected 0xEDB88320#32 0xFFFFFFFF#32 d) := by
  rw [getCrc32_complement]
  exact congrArg _ (tableDriven_reflected _ _ crc32Table_exact d)

theorem getCrc32_ieee : getCrc32 crc32Ieee (bswap32 c) d = bswap32 (highestFirst 0x04C11DB7#32 c d) := by
  rw [getCrc32_driven]
  exact tableDriven_highestFirst _ _ crc32Ieee_exact d

end

theorem getCrc32_append (table : CrcTable) (c : BitVec 32) (a b : Bytes) :
    getCrc32 table c (a++b) = getCrc32 table (getCrc32 table c a) b := List.foldl_append

theorem getCrc32From_append (c : BitVec 32) (a b : Bytes) :
    ByteCrypto.getCrc32From c (a++b) = ByteCrypto.getCrc32From (ByteCrypto.getCrc32From c a) b := List.foldl_append

-- The complemented CRC goes on where its complement left off.
theorem getCrc32_start_append (a b : Bytes) :
    ByteCrypto.getCrc32 (a++b) = ~~~(ByteCrypto.getCrc32From (~~~(ByteCrypto.getCrc32 a)) b) := by
  rw [getCrc32_start,getCrc32_start,getCrc32From_reflected,BitVec.not_not,reflected_append]

theorem crc_bitwise (c : BitVec 32) (d a b : Bytes) :
    (ByteCrypto.getCrc32From c d = reflected 0xEDB88320#32 c d ∧
      getCrc32 crc32IeeeLe c d = reflected 0xEDB88320#32 c d ∧
      ByteCrypto.getCrc32 d = ~~~(reflected 0xEDB88320#32 0xFFFFFFFF#32 d) ∧
      getCrc32 crc32Ieee (bswap32 c) d = bswap32 (highestFirst 0x04C11DB7#32 c d)) ∧
    (ByteCrypto.getCrc32From c (a++b) = ByteCrypto.getCrc32From (ByteCrypto.getCrc32From c a) b ∧
      getCrc32 crc32IeeeLe c (a++b) = getCrc32 crc32IeeeLe (getCrc32 crc32IeeeLe c a) b ∧
      ByteCrypto.getCrc32 (a++b) = ~~~(ByteCrypto.getCrc32From (~~~(ByteCrypto.getCrc32 a)) b) ∧
      getCrc32 crc32Ieee c (a++b) = getCrc32 crc32Ieee (getCrc32 crc32Ieee c a) b) := by
  refine ⟨⟨?_,?_,?_,?_⟩,?_,?_,?_,?_⟩
  · exact getCrc32From_reflected c d
  · exact getCrc32_le c d
  · exact getCrc32_start d
  · exact getCrc32_ieee c d
  · exact getCrc32From_append c a b
  · exact getCrc32_append _ c a b
  · exact getCrc32_start_append a b
  · exact getCrc32_append _ c a b

end CoStream
