/-
The constants of `config.h` that the modelled functions use.
-/

namespace KernelPlay

def diskSectorSize : Int := 512

def kernelHeapBlockSize : Int := 4096

def kernelHeapSizeInBytes : Nat := 0x6400000

def maxFilesystems : Nat := 12

def maxFiledescriptors : Nat := 512

def ok : Int := 0
def eio : Int := 1
def einvarg : Int := 2
def enomem : Int := 3
def efsnotus : Int := 4
def erdonly : Int := 5
def eunimp : Int := 99

end KernelPlay
