import VaultCrdtServer.Incarnation.Deletes
import VaultCrdtServer.Incarnation.Grants
import VaultCrdtServer.Merge.Acknowledged
import VaultCrdtServer.Merge.Replay
import VaultCrdtServer.Listing
import VaultCrdtServer.Broadcast.Order
import VaultCrdtServer.Tombstones.Expiry
import VaultCrdtServer.Refusals
import VaultCrdtServer.Vectors
import VaultCrdtServer.VvSerde.RoundTrip
import VaultCrdtServer.Blobs.Chains
import VaultCrdtServer.Blobs.Caps
import VaultCrdtServer.Blobs.Accepted
import VaultCrdtServer.Blobs.Convergence
import VaultCrdtServer.Blobs.Store
import VaultCrdtServer.Blobs.Walks
import VaultCrdtServer.Blobs.Admission
import VaultCrdtServer.Blobs.Sanitized
import VaultCrdtServer.Blobs.Received
import VaultCrdtServer.Blobs.DisplayPaths
import VaultCrdtServer.Blobs.FilePaths
import VaultCrdtServer.Blobs.Ranges
import VaultCrdtServer.Blobs.Turns
import VaultCrdtServer.Blobs.Torn
import VaultCrdtServer.Access.Secrets
import VaultCrdtServer.Access.Invites
import VaultCrdtServer.Access.Retirement
import VaultCrdtServer.Access.Devices
import VaultCrdtServer.Access.Links
import VaultCrdtServer.Access.RateLimiter
import VaultCrdtServer.DocLocks
import VaultCrdtServer.Traffic
import VaultCrdtServer.Vaults
import VaultCrdtServer.Server.Transcripts
import VaultCrdtServer.Loro.Updates
import VaultCrdtServer.Synchronization
import VaultCrdtServer.Deleted
