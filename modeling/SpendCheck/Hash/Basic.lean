import SpendCheck.Hash.Sha256
import SpendCheck.Hash.Ripemd160

/-!
# The hashes of scripts and transactions

Keys and scripts are named by their RIPEMD-160 over SHA-256, transactions and
blocks by their SHA-256 taken twice.
-/

namespace SpendCheck

def hash160 (data : Bytes) : Hash160 := Ripemd160.hash (Sha256.hash data).toList

def doubleSha256 (data : Bytes) : Hash256 := Sha256.hash (Sha256.hash data).toList

end SpendCheck
