import SdcProbe.AssemblerText

/-!
# The code of the substitute memset

`sdc_rbx_memset` as `HEADER` writes it. Instructions given by their names stand
here as the bytes an assembler makes of them; a jump back to `.Lmemset_stos` is
too far for a short one.
-/

namespace SdcProbe.MemsetCode

open Disassembly AssemblerText

set_option autoImplicit false

def jmpStos : List Item := [.bytes [0xe9], .long { label := .memsetStos } 4]

def memsetItems : List Item :=
  [.label .memset,
    .bytes [0xf3, 0x0f, 0x1e, 0xfa],                -- endbr64
    .bytes [0xc5, 0xf9, 0x6e, 0xc6],                -- vmovd  %esi,%xmm0
    .bytes [0x48, 0x89, 0xf8],                      -- mov    %rdi,%rax
    .bytes [0x48, 0x83, 0xfa, 0x20],                -- cmp    $0x20,%rdx
    .bytes [0x0f, 0x82],                            -- jb     sdc_rbx_memset+0xe0
    .long { label := .memsetSmall } 4,
    .label .memsetStos,
    .bytes [0x49, 0x89, 0xf8],                      -- mov    %rdi,%r8
    .bytes [0x40, 0x0f, 0xb6, 0xc6],                -- movzbl %sil,%eax
    .bytes [0x48, 0x89, 0xd1],                      -- mov    %rdx,%rcx
    .bytes [0xf3, 0xaa],                            -- rep stosb
    .bytes [0x4c, 0x89, 0xc0],                      -- mov    %r8,%rax
    .bytes [0xc3],                                  -- ret
    .skip (0xe0 - 0x25),
    .label .memsetSmall,
    .bytes [0xc4, 0xe2, 0x79, 0x78, 0xc0],          -- vpbroadcastb %xmm0,%xmm0
    .bytes [0x83, 0xfa, 0x10],                      -- cmp    $0x10,%edx
    .bytes [0x7d, 0x16],                            -- jge    +0x100
    .bytes [0x83, 0xfa, 0x08],                      -- cmp    $0x8,%edx
    .bytes [0x7d, 0x21],                            -- jge    +0x110
    .bytes [0x83, 0xfa, 0x04],                      -- cmp    $0x4,%edx
    .bytes [0x7d, 0x2c],                            -- jge    +0x120
    .bytes [0x83, 0xfa, 0x01],                      -- cmp    $0x1,%edx
    .bytes [0x7f, 0x37],                            -- jg     +0x130
    .bytes [0x7c, 0x03],                            -- jl     +0xfe
    .bytes [0x40, 0x88, 0x37],                      -- mov    %sil,(%rdi)
    .bytes [0xc3],                                  -- ret
    .bytes [0x90]] ++
  jmpStos ++ [.skip (0x110 - 0x105)] ++ jmpStos ++ [.skip (0x120 - 0x115)] ++ jmpStos ++
    [.skip (0x130 - 0x125)] ++ jmpStos

/-- Where the labels of the code stand, from its beginning. -/
def memsetPlaces (label : Label) : Nat := (definedAt label 0 memsetItems).getD 0

/-- The bytes of the code. -/
def memsetCode : List Byte := assemble memsetPlaces 0 memsetItems

example : memsetPlaces .memsetStos = 0x15 ∧ memsetPlaces .memsetSmall = 0xe0 := by decide

end SdcProbe.MemsetCode
