import LibKprintf.Model.Basic

/-! The font of the debug screen, font.c: one glyph of eight rows for every character. A row
is a byte, with the leftmost pixel in its highest bit.
-/

namespace LibKprintf

/-- The eight rows of a glyph, the top one in the highest byte. -/
abbrev Glyph := BitVec 64

/-- A font: the glyphs of the 256 characters. -/
abbrev Font := Vector Glyph 256

/-- `font[ch * 8 + i]`, row `i` of a character's glyph. -/
def Font.row (font : Font) (ch : Byte) (i : Nat) : Byte :=
  (font.get ch.toFin >>> (8 * (7 - i))).setWidth 8

set_option maxRecDepth 4000 in
/-- `g_msx`, the default font. -/
def gMsx : Font :=
  #v[
    0x0000000000000000, 0x3c42a581a599423c, 0x3c7edbffffdb663c, 0x6cfefefe7c381000,
    0x10387cfe7c381000, 0x103854fe54103800, 0x10387cfefe103800, 0x0000003030000000,
    0xffffffe7e7ffffff, 0x3844828282443800, 0xc7bb7d7d7dbbc7ff, 0x0f03057988888870,
    0x3844444438107c10, 0x302824242820e0c0, 0x3c243c2424e4dc18, 0x105438ee38541000,
    0x1010107c10101010, 0x101010ff00000000, 0x000000ff10101010, 0x101010f010101010,
    0x1010101f10101010, 0x101010ff10101010, 0x1010101010101010, 0x000000ff00000000,
    0x0000001f10101010, 0x000000f010101010, 0x1010101f00000000, 0x101010f000000000,
    0x8142241818244281, 0x0102040810204080, 0x8040201008040201, 0x001010ff10100000,
    0x0000000000000000, 0x2020202000002000, 0x5050500000000000, 0x5050f850f8505000,
    0x2078a07028f02000, 0xc0c8102040981800, 0x40a040a890986000, 0x1020400000000000,
    0x1020404040201000, 0x4020101010204000, 0x20a8702070a82000, 0x002020f820200000,
    0x0000000000202040, 0x0000007800000000, 0x0000000000606000, 0x0000081020408000,
    0x708898a8c8887000, 0x2060a0202020f800, 0x708808106080f800, 0x7088083008887000,
    0x10305090f8101000, 0xf880e0100810e000, 0x304080f088887000, 0xf888102020202000,
    0x7088887088887000, 0x7088887808106000, 0x0000200000200000, 0x0000200000202040,
    0x183060c060301800, 0x0000f800f8000000, 0xc06030183060c000, 0x7088081020002000,
    0x70880868a8a87000, 0x20508888f8888800, 0xf04848704848f000, 0x3048808080483000,
    0xe05048484850e000, 0xf88080f08080f800, 0xf88080f080808000, 0x708880b888887000,
    0x888888f888888800, 0x7020202020207000, 0x3810101090906000, 0x8890a0c0a0908800,
    0x808080808080f800, 0x88d8a8a888888800, 0x88c8c8a898988800, 0x7088888888887000,
    0xf08888f080808000, 0x70888888a8906800, 0xf08888f0a0908800, 0x7088807008887000,
    0xf820202020202000, 0x8888888888887000, 0x8888888850502000, 0x888888a8a8d88800,
    0x8888502050888800, 0x8888887020202000, 0xf80810204080f800, 0x7040404040407000,
    0x0000804020100800, 0x7010101010107000, 0x2050880000000000, 0x000000000000f800,
    0x4020100000000000, 0x0000700878887800, 0x8080b0c888c8b000, 0x0000708880887000,
    0x0808689888986800, 0x00007088f8807000, 0x102820f820202000, 0x0000689898680870,
    0x8080f08888888800, 0x2000602020207000, 0x1000301010109060, 0x4040485060504800,
    0x6020202020207000, 0x0000d0a8a8a8a800, 0x0000b0c888888800, 0x0000708888887000,
    0x0000b0c8c8b08080, 0x0000689898680808, 0x0000b0c880808000, 0x00007880f008f000,
    0x4040f04040483000, 0x0000909090906800, 0x0000888888502000, 0x000088a8a8a85000,
    0x0000885020508800, 0x0000888898680870, 0x0000f8102040f800, 0x1820204020201800,
    0x2020200020202000, 0xc02020102020c000, 0x40a8100000000000, 0x00002050f8000000,
    0x7088808088702060, 0x9000009090906800, 0x10207088f8807000, 0x2050700878887800,
    0x4800700878887800, 0x2010700878887800, 0x2000700878887800, 0x0070808080701060,
    0x20507088f8807000, 0x50007088f8807000, 0x20107088f8807000, 0x5000006020207000,
    0x2050006020207000, 0x4020006020207000, 0x5000205088f88800, 0x2000205088f88800,
    0x1020f880f080f800, 0x00006c127e906e00, 0x3e50909cf0909e00, 0x6090006090906000,
    0x9000006090906000, 0x4020006090906000, 0x40a000a0a0a05000, 0x402000a0a0a05000,
    0x90009090b05010e0, 0x5000708888887000, 0x5000888888887000, 0x2020788080782020,
    0x182420f820e25c00, 0x885020f820f82000, 0xc0a0a0c89c88888c, 0x182020f820202040,
    0x1020700878887800, 0x1020006020207000, 0x2040006090906000, 0x2040009090906800,
    0x50a000a0d0909000, 0x285000c8a8988800, 0x00700878887800f8, 0x00609090906000f0,
    0x2000204080887000, 0x000000f880800000, 0x000000f808080000, 0x848890a85484081c,
    0x848890a858a83c08, 0x2000002020202000, 0x0000244890482400, 0x0000904824489000,
    0x2850205088f88800, 0x2850700878887800, 0x2850007020207000, 0x2850002020207000,
    0x2850007088887000, 0x50a0006090906000, 0x2850008888887000, 0x50a000a0a0a05000,
    0xfc484848e8085020, 0x0050005050501020, 0xc044c854ec549e04, 0x10a8400000000000,
    0x0020508850200000, 0x8810204080280000, 0x7ca8a86828282800, 0x3840304848300870,
    0x000000000000ffff, 0xf0f0f0f00f0f0f0f, 0x0000ffffffffffff, 0xffff000000000000,
    0x0000003c3c000000, 0xffffffffffff0000, 0xc0c0c0c0c0c0c0c0, 0x0f0f0f0ff0f0f0f0,
    0xfcfcfcfcfcfcfcfc, 0x0303030303030303, 0x3f3f3f3f3f3f3f3f, 0x1122448811224488,
    0x8844221188442211, 0xfe7c381000000000, 0x0000000010387cfe, 0x80c0e0f0e0c08000,
    0x0103070f07030100, 0xff7e3c18183c7eff, 0x81c3e7ffffe7c381, 0xf0f0f0f000000000,
    0x000000000f0f0f0f, 0x0f0f0f0f00000000, 0x00000000f0f0f0f0, 0x3333cccc3333cccc,
    0x002020505088f800, 0x2020702070202000, 0x0000005088a85000, 0xffffffffffffffff,
    0x00000000ffffffff, 0xf0f0f0f0f0f0f0f0, 0x0f0f0f0f0f0f0f0f, 0xffffffff00000000,
    0x0000689090906800, 0x30484870484870c0, 0xf888808080808000, 0xf850505050509800,
    0xf88840204088f800, 0x0000789090906000, 0x0050505050688080, 0x0050a02020202000,
    0xf82070a8a87020f8, 0x205088f888502000, 0x708888885050d800, 0x3040402050505020,
    0x00000050a8a85000, 0x0870a8a8a8708000, 0x384080f880403800, 0x7088888888888800,
    0x00f800f800f80000, 0x2020f8202000f800, 0xc0300830c000f800, 0x186080601800f800,
    0x1028202020202020, 0x202020202020a040, 0x002000f800200000, 0x0050a00050a00000,
    0x0018242418000000, 0x0030787830000000, 0x0000000030000000, 0x3e202020a0602000,
    0xa050505000000000, 0x40a02040e0000000, 0x0038383838383800, 0x0000000000000000]

/-- Character 219 is the solid block. -/
theorem gMsx_block : ∀ i < 8, gMsx.row 219 i = 0xff := by decide

end LibKprintf
