import GpuListing.Toolkit

/-! # AMDGPU

The bundle for the GCN, CDNA and RDNA generations of AMD GPUs. Instructions are 32-bit words, with up to two
more for second words and literal constants. -/

namespace GpuListing.Amdgpu

/-- The family. -/
def family : Family := ⟨"AMDGPU"⟩

/-- The triple that is taken when none is given. -/
def defaultTriple : String := "amdgcn--amdhsa"

/-- The processor that is taken when none is given. -/
def defaultProcessor : String := "gfx900"

/-- The processors, by generation. -/
def processors : List String :=
  ["gfx700", "gfx701", "gfx702", "gfx703", "gfx704", "gfx705",
   "gfx801", "gfx802", "gfx803", "gfx805", "gfx810",
   "gfx900", "gfx902", "gfx904", "gfx906", "gfx908", "gfx909", "gfx90a", "gfx90c", "gfx940", "gfx941", "gfx942",
   "gfx1010", "gfx1011", "gfx1012", "gfx1013",
   "gfx1030", "gfx1031", "gfx1032", "gfx1033", "gfx1034", "gfx1035", "gfx1036",
   "gfx1100", "gfx1101", "gfx1102", "gfx1103"]

/-- The target info. -/
def info : TargetInfo where
  family := family
  name := "amdgcn"
  description := "AMD GCN GPUs"
  triples := [defaultTriple, "amdgcn-amd-amdhsa"]

/-- The machine model. -/
def machine : MachineModel where
  family := family
  processors := processors
  defaultProcessor := defaultProcessor
  minLength := 4
  maxLength := 12
  alignment := 4

/-- The bundle, whose decoder lists raw words. -/
def bundle : Bundle := ⟨info, machine, Decoder.rawWordFactory⟩

/-- The toolkit of every build. -/
def toolkit : Toolkit := Toolkit.empty.addBundle bundle

end GpuListing.Amdgpu
