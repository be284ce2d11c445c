import CacheCoherence.Main
import CacheCoherence.Proofs.Acquisitions
import CacheCoherence.Proofs.Barriers
import CacheCoherence.Proofs.BoundedQueues
import CacheCoherence.Proofs.Channels
import CacheCoherence.Proofs.Coherence
import CacheCoherence.Proofs.Construction
import CacheCoherence.Proofs.Custody
import CacheCoherence.Proofs.Drainage
import CacheCoherence.Proofs.Effort
import CacheCoherence.Proofs.Evictions
import CacheCoherence.Proofs.Exclusion
import CacheCoherence.Proofs.Gathering
import CacheCoherence.Proofs.Lanes
import CacheCoherence.Proofs.Merging
import CacheCoherence.Proofs.Obligations
import CacheCoherence.Proofs.Quiescence
import CacheCoherence.Proofs.Refills
import CacheCoherence.Proofs.Refusals
import CacheCoherence.Proofs.Rejections
import CacheCoherence.Proofs.Replacement
import CacheCoherence.Proofs.Replies
import CacheCoherence.Proofs.ShiftChain
import CacheCoherence.Proofs.Tenancies
import CacheCoherence.Proofs.Tiling
import CacheCoherence.Proofs.Turns
