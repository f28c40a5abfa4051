import BitSerial.Main
import BitSerial.Proofs.Exclusion
import BitSerial.Proofs.OnChip
import BitSerial.Proofs.Termination
import BitSerial.Proofs.Crowding
import BitSerial.Proofs.Partition
import BitSerial.Proofs.Delivery
import BitSerial.Proofs.Product
import BitSerial.Proofs.Attachment
import BitSerial.Proofs.Repetition
import BitSerial.Proofs.Abandonment
import BitSerial.Proofs.CycleCounts
import BitSerial.Proofs.FeedDelivery
import BitSerial.Proofs.Acceptance
import BitSerial.Proofs.Exactness
import BitSerial.Proofs.Isolation
import BitSerial.Proofs.Alignment
import BitSerial.Proofs.Replacement
import BitSerial.Proofs.Clearing
import BitSerial.Proofs.Paging
import BitSerial.Proofs.Conservation
import BitSerial.Proofs.Pairing
import BitSerial.Proofs.Programs
import BitSerial.Proofs.Pacing
import BitSerial.Proofs.GivingUp
import BitSerial.Proofs.Attribution
import BitSerial.Proofs.PaddedSchedules
import BitSerial.Proofs.Rejection
import BitSerial.Proofs.Overflow
import BitSerial.Proofs.Allocation
import BitSerial.Proofs.Recall
