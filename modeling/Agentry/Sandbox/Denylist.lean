import Agentry.Files.Path
import Agentry.Text.Lowercase
/-!
# The denylist

Command names that can destroy something are refused. Only the file name at the end of the command's
path counts, in lower case, and an entry matches wherever it occurs in that name. A path without a
file name is looked through as a whole.
-/
namespace Agentry.Denylist

/-- Deletion and permissions, privilege, processes and services, firewall, disks. -/
def entries : List String :=
  ["rm", "rmdir", "unlink", "shred", "del", "mv", "chmod", "chown", "chgrp",
   "sudo", "su", "doas",
   "kill", "pkill", "killall", "systemctl", "service", "shutdown", "reboot", "halt", "poweroff",
   "iptables", "nft", "ufw", "firewall-cmd",
   "mkfs", "fdisk", "parted", "dd", "mount", "umount", "format"]

/-- The first entry that occurs in the command's lower-case name. -/
def matching (command : String) : Option String :=
  let name := Text.lowercase ((Path.fileName command.toList).getD command.toList)
  entries.find? fun entry => Text.contains entry.toList name

end Agentry.Denylist
